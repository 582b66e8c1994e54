import Sesh.SshFlow

/-!
# The end of a stream

A side that has nothing more to write says so (`CloseWrite`), and a read at
the other side returns the end once everything before it has been read. Then
what was read should be all that was written.

It is, on one condition. `CloseWrite` does not wait for a write that is under
way, and `WriteExtended` looks at `sentEOF` only when it is called; so a side
that calls the one while the other is under way sends data behind its end of
file. Where `CloseWrite` is called only when no write is under way
(`Ssh.Polite`), a read that returned the end has seen everything
(`net_eof`). It makes no difference whether the end was the end of the
file or a close.
-/

namespace Ssh

open Channel CreditFlow

/-- Whether a packet is the end of the file. -/
def Channel.Pkt.isEOF : Pkt → Bool
  | .eof => true
  | _ => false

namespace End

variable {e e' f f' : End} {ps : List Pkt} {a : Act} {w : List (UInt32 × Pkt)}

/-- A side has heard that a stream ends. -/
def HeardEOF (e : End) : Prop :=
  (∃ s, .eof s ∈ e.todo) ∨ ∃ s, (e.ch.buffer s).closed = true

/-! ## What a step does to the ends of the buffers -/

theorem closed_setBuffer {c : Channel} {s : Stream} {b : Buffer}
    (h : b.closed = (c.buffer s).closed) (t : Stream) :
    ((c.setBuffer s b).buffer t).closed = (c.buffer t).closed := by
  rw [buffer_setBuffer]
  by_cases ht : t = s
  · rw [ht, Function.update_self, h]
  · rw [Function.update_of_ne ht]

/-- Only an `eof` ends a buffer. -/
theorem closed_of_handled {b : MuxAct} (h : Handled e b e' ps) (t : Stream) :
    ((e.ch.buffer t).closed = true → (e'.ch.buffer t).closed = true)
      ∧ ((e'.ch.buffer t).closed = true → (e.ch.buffer t).closed = true ∨ b = .eof t) := by
  cases h with
  | store s data =>
    rw [closed_setBuffer (Buffer.closed_write _ _)]
    exact ⟨fun h => h, .inl⟩
  | eof s =>
    show (_ → ((e.ch.setBuffer s (e.ch.buffer s).eof).buffer t).closed = true)
      ∧ (((e.ch.setBuffer s (e.ch.buffer s).eof).buffer t).closed = true → _)
    rw [buffer_setBuffer]
    by_cases ht : t = s
    · rw [ht, Function.update_self]
      exact ⟨fun _ => rfl, fun _ => .inr rfl⟩
    · rw [Function.update_of_ne ht]
      exact ⟨fun h => h, .inl⟩
  | _ => cases t <;> exact ⟨fun h => h, .inl⟩

theorem closed_of_step (h : Step e a e' ps) (t : Stream) :
    ((e.ch.buffer t).closed = true → (e'.ch.buffer t).closed = true)
      ∧ ((e'.ch.buffer t).closed = true → (e.ch.buffer t).closed = true ∨ .eof t ∈ e.todo) := by
  cases h with
  | read s k d b hr hd hb =>
    show (_ → ((e.ch.setBuffer s b).buffer t).closed = true)
      ∧ (((e.ch.setBuffer s b).buffer t).closed = true → _)
    rw [closed_setBuffer (Buffer.read_cases hb).1]
    exact ⟨fun h => h, .inl⟩
  | readEOF s k b hr hd hb =>
    show (_ → ((e.ch.setBuffer s b).buffer t).closed = true)
      ∧ (((e.ch.setBuffer s b).buffer t).closed = true → _)
    rw [closed_setBuffer (Buffer.read_cases hb).1]
    exact ⟨fun h => h, .inl⟩
  | handle b todo _ _ ht hh =>
    obtain ⟨hmono, hnew⟩ := closed_of_handled hh t
    refine ⟨hmono, fun hc => (hnew hc).imp id ?_⟩
    rintro rfl
    rw [ht]
    exact List.mem_cons_self
  | _ => cases t <;> exact ⟨fun h => h, .inl⟩

/-- A step hears of no end. -/
theorem HeardEOF.of_step (h : Step e a e' ps) (hh : e'.HeardEOF) : e.HeardEOF := by
  rcases hh with ⟨s, hs⟩ | ⟨s, hs⟩
  · refine .inl ⟨s, ?_⟩
    by_cases ha : a = .handle
    · subst ha
      cases h with
      | handle b todo _ _ ht hh =>
        rw [ht]
        refine List.mem_cons_of_mem _ ?_
        cases hh <;> exact hs
    · rwa [(control_of_step h ha).1] at hs
  · rcases (closed_of_step h s).2 hs with hc | hm
    · exact .inr ⟨s, hc⟩
    · exact .inl ⟨s, hm⟩

/-- Where nothing is in hand, nothing comes into hand. -/
theorem Effect.stored_nil (h : Effect e e' ps) (hs : e.receiver.stored = []) :
    e'.receiver.stored = [] ∧ ∀ t, e.receiver.buffer t = [] → e'.receiver.buffer t = [] := by
  cases h with
  | idle _ hr | reserve _ _ _ _ hr | forfeit _ _ _ _ hr | send _ _ _ _ hr =>
    rw [hr]
    exact ⟨hs, fun _ h => h⟩
  | store _ hr =>
    rw [Receiver.store, hs] at hr
    cases hr
  | read s n _ hr =>
    rw [Receiver.read] at hr
    split at hr
    · rw [← Option.some.inj hr]
      refine ⟨hs, fun t ht => ?_⟩
      show Function.update e.receiver.buffer s ((e.receiver.buffer s).drop n) t = []
      by_cases hts : t = s
      · rw [hts, Function.update_self, ← hts, ht, List.drop_nil]
      · rw [Function.update_of_ne hts, ht]
    · cases hr
  | grant s _ hr =>
    rw [hr]
    exact ⟨hs, fun _ h => h⟩
  | announce s _ hr | withhold s _ hr =>
    rw [hr]
    exact ⟨hs, fun _ h => h⟩

/-- Which reads have returned the end. -/
theorem sawEOF_of_step (h : Step e a e' ps) {t : Stream} (ht : (e'.lane t).sawEOF = true) :
    (e.lane t).sawEOF = true
      ∨ ((e'.ch.buffer t).closed = true ∧ (e'.ch.buffer t).contents = []) := by
  have hsame : ∀ {s : Stream} {l : Lane}, (Function.update e.lane s l t).sawEOF = true →
      l.sawEOF = (e.lane s).sawEOF → (e.lane t).sawEOF = true := by
    intro s l ht hl
    by_cases hts : t = s
    · rw [hts, Function.update_self, hl] at ht
      rw [hts]
      exact ht
    · rwa [Function.update_of_ne hts] at ht
  cases h with
  | write | reserve | refuse | send | giveUp | read | addWindow | announce | withhold =>
    exact .inl (hsame ht rfl)
  | readEOF s k b hr hd hb =>
    by_cases hts : t = s
    · right
      obtain ⟨hb', ⟨d, hd', -⟩ | ⟨-, hc, -, hempty⟩⟩ := Buffer.read_cases hb
      · cases hd'
      · show ((e.ch.setBuffer s b).buffer t).closed = true
          ∧ ((e.ch.setBuffer s b).buffer t).contents = []
        rw [buffer_setBuffer, hts, Function.update_self]
        exact ⟨hb'.trans hc, hempty⟩
    · left
      have ht' : (Function.update e.lane s { e.lane s with sawEOF := true } t).sawEOF = true := ht
      rwa [Function.update_of_ne hts] at ht'
  | handle b todo _ _ hb hh =>
    rw [lane_of_handled hh] at ht
    exact .inl ht
  | _ => exact .inl ht

/-! ## What a step does to the end of what is written -/

/-- Only `CloseWrite` ends what a side writes. -/
theorem sentEOF_of_step (h : Step e a e' ps) (ha : a ≠ .closeWrite) :
    e'.ch.sentEOF = e.ch.sentEOF := by
  cases h with
  | read s k d b | readEOF s k b => cases s <;> rfl
  | closeWrite => exact absurd rfl ha
  | handle b todo _ _ hb hh =>
    cases hh with
    | store s _ | eof s => cases s <;> rfl
    | _ => rfl
  | _ => rfl

/-- A side whose writers are idle, and that has said so, sends no data. -/
theorem idle_of_step (h : Step e a e' ps) (hs : e.ch.sentEOF = true)
    (hidle : ∀ s, (e.lane s).writer = .idle) :
    (∀ s, (e'.lane s).writer = .idle) ∧ ps.filterMap Pkt.chunk = [] := by
  have hsame : ∀ {s : Stream} {l : Lane}, l.writer = (e.lane s).writer →
      ∀ t, (Function.update e.lane s l t).writer = .idle := by
    intro s l hl t
    by_cases hts : t = s
    · rw [hts, Function.update_self, hl, hidle]
    · rw [Function.update_of_ne hts, hidle]
  cases h with
  | write s data hw hd hs' =>
    rw [hs] at hs'
    cases hs'
  | reserve s data n w hw | refuse s data n w hw | send s n data hw | giveUp s n data hw =>
    rw [hidle] at hw
    cases hw
  | read | readEOF | addWindow | announce | withhold => exact ⟨hsame rfl, rfl⟩
  | sendEOF n hn ps hps | sendRequest r hd hr ps hps | ackRequest ok hd ps hps =>
    refine ⟨hidle, ?_⟩
    rw [hps]
    split <;> rfl
  | handle b todo _ _ hb hh =>
    rw [lane_of_handled hh]
    refine ⟨hidle, ?_⟩
    cases hh <;> rfl
  | _ => exact ⟨hidle, rfl⟩

/-- A side that owes no end does not send one. -/
theorem eofDue_of_step (h : Step e a e' ps) (hdue : e.eofDue = 0) :
    (∀ k ∈ ps, k.isEOF = false) ∧ (a ≠ .closeWrite → e'.eofDue = 0) := by
  have hone : ∀ {q : Pkt}, q.isEOF = false → ∀ k ∈ [q], k.isEOF = false := by
    intro q hq k hk
    rw [List.mem_singleton.mp hk]
    exact hq
  cases h with
  | send | announce | close => exact ⟨hone rfl, fun _ => hdue⟩
  | closeWrite => exact ⟨nofun, fun ha => absurd rfl ha⟩
  | sendEOF n hn =>
    rw [hdue] at hn
    cases hn
  | sendRequest r hd hr ps hps | ackRequest ok hd ps hps =>
    refine ⟨?_, fun _ => hdue⟩
    rw [hps]
    split
    · nofun
    · exact hone rfl
  | handle b todo _ _ hb hh =>
    cases hh with
    | sendClose => exact ⟨hone rfl, fun _ => hdue⟩
    | _ => exact ⟨nofun, fun _ => hdue⟩
  | _ => exact ⟨nofun, fun _ => hdue⟩

/-! ## One direction -/

/-- **The end of a direction**: nothing is written behind it, and who has
heard it has everything. -/
structure Ends (f : End) (w : List (UInt32 × Pkt)) (e : End) : Prop where
  writers : f.ch.sentEOF = true → ∀ s, (f.lane s).writer = .idle
  due : f.ch.sentEOF = false → f.eofDue = 0
  wire : f.ch.sentEOF = false → ∀ x ∈ w, x.2.isEOF = false
  /-- What is heard before the end is a close. -/
  early : f.ch.sentEOF = false → e.HeardEOF → e.GotClose
  order : w.Pairwise (fun x y => x.2.isEOF = true → y.2.chunk = none)
  heard : e.HeardEOF → chunks w = [] ∧ e.receiver.stored = []
  saw : ∀ s, (e.lane s).sawEOF = true →
    (e.ch.buffer s).closed = true ∧ (e.ch.buffer s).contents = []

/-- **The sender takes a step**, and has no write under way when it says that
its stream ends. -/
theorem Ends.send {num : UInt32} (h : Ends f w e) (hl : Link f w e) (hs : Step f a f' ps)
    (hpolite : a = .closeWrite → ∀ s, (f.lane s).writer = .idle) :
    Ends f' (w ++ ps.map (fun k => (num, k))) e := by
  -- a side that has not ended its stream did not end it before
  have hopen : f'.ch.sentEOF = false → a ≠ .closeWrite ∧ f.ch.sentEOF = false := by
    intro hf'
    by_cases ha : a = .closeWrite
    · subst ha
      cases hs
      cases hf'
    · exact ⟨ha, (sentEOF_of_step hs ha).symm.trans hf'⟩
  -- data is only sent before the end, and before a close
  have hdata : f.ch.sentEOF = true ∨ e.HeardEOF → ps.filterMap Pkt.chunk = [] := by
    rintro hend
    cases hf : f.ch.sentEOF with
    | true => exact (idle_of_step hs hf (h.writers hf)).2
    | false =>
      have hh : e.HeardEOF := hend.resolve_left (by rw [hf]; exact Bool.false_ne_true)
      have hsent : f.ch.sentClose = true := hl.closed.mpr (.inr (h.early hf hh))
      rw [sent_of_sentClose hs hsent]
      rfl
  refine ⟨fun hf' => ?_, fun hf' => ?_, fun hf' x hx => ?_, fun hf' => h.early (hopen hf').2, ?_,
    fun hh => ?_, h.saw⟩
  · by_cases ha : a = .closeWrite
    · subst ha
      cases hs
      exact hpolite rfl
    · have hf : f.ch.sentEOF = true := (sentEOF_of_step hs ha).symm.trans hf'
      exact (idle_of_step hs hf (h.writers hf)).1
  · obtain ⟨ha, hf⟩ := hopen hf'
    exact (eofDue_of_step hs (h.due hf)).2 ha
  · obtain ⟨-, hf⟩ := hopen hf'
    rcases List.mem_append.mp hx with hx | hx
    · exact h.wire hf x hx
    · obtain ⟨k, hk, rfl⟩ := List.mem_map.mp hx
      exact (eofDue_of_step hs (h.due hf)).1 k hk
  · rw [List.pairwise_append, List.pairwise_map]
    refine ⟨h.order, pairwise_of_step hs, fun x hx y hy heof => ?_⟩
    have hf : f.ch.sentEOF = true := by
      by_contra hf
      rw [h.wire (Bool.not_eq_true _ ▸ hf) x hx] at heof
      cases heof
    obtain ⟨k, hk, rfl⟩ := List.mem_map.mp hy
    exact List.filterMap_eq_nil_iff.mp (hdata (.inl hf)) k hk
  · obtain ⟨hw, hst⟩ := h.heard hh
    rw [chunks_append, hw, hdata (.inr hh)]
    exact ⟨rfl, hst⟩

/-- **The receiver takes a step.** -/
theorem Ends.work (h : Ends f w e) (he : e.Sane) (hs : Step e a e' ps) (heff : Effect e e' ps) :
    Ends f w e' := by
  obtain ⟨-, hgot, -⟩ := he.step hs
  refine ⟨h.writers, h.due, h.wire, fun hf hh => hgot.mpr (h.early hf (hh.of_step hs)), h.order,
    fun hh => ?_, fun s hsaw => ?_⟩
  · obtain ⟨hw, hst⟩ := h.heard (hh.of_step hs)
    exact ⟨hw, (heff.stored_nil hst).1⟩
  · rcases sawEOF_of_step hs hsaw with hsaw | hnew
    · obtain ⟨hc, hempty⟩ := h.saw s hsaw
      obtain ⟨-, hst⟩ := h.heard (.inr ⟨s, hc⟩)
      exact ⟨(closed_of_step hs s).1 hc, (heff.stored_nil hst).2 s hempty⟩
    · exact hnew

/-- A packet hears of an end only where it is one. -/
theorem HeardEOF.of_delivered {k : Pkt} (hd : Delivered f e k e') (hh : e'.HeardEOF) :
    e.HeardEOF ∨ k.isEOF = true ∨ isClose k = true := by
  have hbuf : (∃ s, (e'.ch.buffer s).closed = true) → e.HeardEOF := by
    rintro ⟨s, hs⟩
    refine .inr ⟨s, ?_⟩
    cases hd <;> cases s <;> exact hs
  rcases hh with ⟨s, hs⟩ | hs
  · cases hd with
    | eof => exact .inr (.inl rfl)
    | close => exact .inr (.inr rfl)
    | data t d =>
      have hs' : .eof s ∈ (if d = [] then [] else [MuxAct.store t.extendedCode d]) := hs
      split at hs'
      · cases hs'
      · cases List.mem_singleton.mp hs'
    | windowAdjust n => cases hs
    | confirm m | request r | reply ok m => cases List.mem_singleton.mp hs
  · exact .inl (hbuf hs)

/-- **The receiver gets a packet.** -/
theorem Ends.delivered {num : UInt32} {k : Pkt} (h : Ends f ((num, k) :: w) e)
    (hl : Link f ((num, k) :: w) e) (he : e.Sane) (hd : Delivered f e k e') : Ends f w e' := by
  have hrun := hl.running he
  obtain ⟨horder, horder'⟩ := List.pairwise_cons.mp h.order
  -- who has heard of an end before gets no data
  have hsplit : e'.HeardEOF → chunks w = [] ∧ k.chunk = none := by
    intro hh
    rcases HeardEOF.of_delivered hd hh with hh | hk | hk
    · have hw := List.filterMap_eq_nil_iff.mp (h.heard hh).1
      exact ⟨List.filterMap_eq_nil_iff.mpr fun x hx => hw x (List.mem_cons_of_mem _ hx),
        hw _ List.mem_cons_self⟩
    · refine ⟨List.filterMap_eq_nil_iff.mpr fun x hx => horder x hx hk, ?_⟩
      cases k <;> first | rfl | cases hk
    · have hnil : w = [] := by
        refine List.eq_nil_iff_forall_not_mem.mpr fun x hx => ?_
        have := (List.pairwise_cons.mp hl.last).1 x hx
        rw [hk] at this
        cases this
      rw [hnil]
      cases k <;> first | exact ⟨rfl, rfl⟩ | cases hk
  refine ⟨h.writers, h.due, fun hf x hx => h.wire hf x (List.mem_cons_of_mem _ hx), ?_, horder',
    ?_, ?_⟩
  · intro hf hh
    rcases HeardEOF.of_delivered hd hh with hh | hk | hk
    · exact absurd (h.early hf hh) hrun.not_gotClose
    · rw [h.wire hf _ List.mem_cons_self] at hk
      cases hk
    · rcases hd.control hrun with ⟨hc, -⟩ | ⟨-, hclosing⟩
      · rw [hc] at hk
        cases hk
      · exact ⟨0, hclosing⟩
  · intro hh
    obtain ⟨hw, hk⟩ := hsplit hh
    refine ⟨hw, ?_⟩
    cases hd <;> first | rfl | cases hk
  · intro s hsaw
    rw [hd.keeps.1] at hsaw
    obtain ⟨hc, hempty⟩ := h.saw s hsaw
    cases hd <;> cases s <;> exact ⟨hc, hempty⟩

/-- **The sender gets a packet.** -/
theorem Ends.told {k : Pkt} (h : Ends e w f) (hd : Delivered f e k e') : Ends e' w f := by
  obtain ⟨hlane, -, -, -, -, hdue, hsent⟩ := hd.keeps
  refine ⟨?_, ?_, ?_, ?_, h.order, h.heard, h.saw⟩
  · rw [hsent, hlane]
    exact h.writers
  · rw [hsent, hdue]
    exact h.due
  · rw [hsent]
    exact h.wire
  · rw [hsent]
    exact h.early

end End

/-! ## Both directions -/

/-- **Nobody says that its stream ends while a write is under way.** -/
def Polite (n : Net) : NetLabel → Prop
  | .act p .closeWrite => ∀ s, ((n.ends p).lane s).writer = .idle
  | _ => True

instance (n : Net) (l : NetLabel) : Decidable (Polite n l) :=
  match l with
  | .act p .closeWrite => inferInstanceAs (Decidable (∀ s, ((n.ends p).lane s).writer = .idle))
  | .act _ (.write _ _) | .act _ (.reserve _) | .act _ (.send _) | .act _ (.read _ _)
  | .act _ (.addWindow _) | .act _ (.sendAdjust _) | .act _ .sendEOF | .act _ .close
  | .act _ (.sendRequest _) | .act _ (.ackRequest _) | .act _ .takeMsg | .act _ .takeRequest
  | .act _ .handle | .deliver _ => isTrue trivial

/-- What holds of polite runs. -/
structure Net.PoliteInv (n : Net) : Prop where
  inv : n.Inv
  ends : ∀ p, End.Ends (n.ends p) (n.wire p) (n.ends p.peer)

theorem Net.PoliteInv.step {n n' : Net} {l : NetLabel} (h : n.PoliteInv) (hc : Polite n l)
    (hs : n.step l = some n') : n'.PoliteInv := by
  refine ⟨h.inv.step hs, ?_⟩
  cases l with
  | act p a =>
    obtain ⟨⟨e', ps⟩, ha, rfl⟩ := Option.map_eq_some_iff.mp hs
    have hstep := End.step_of_act ha
    have heff := End.effect_of_step (h.inv.sane p).wf hstep (h.inv.window_lt p)
    refine Side.forall_of p ?_ ?_
    · rw [put_ends_self, put_wire_self, put_ends_peer]
      refine (h.ends p).send (h.inv.link p) hstep ?_
      rintro rfl
      exact hc
    · rw [put_ends_peer, put_wire_peer, Side.peer_peer, put_ends_self]
      have hends := h.ends p.peer
      rw [Side.peer_peer] at hends
      exact hends.work (h.inv.sane p) hstep heff
  | deliver p =>
    rw [Net.step] at hs
    split at hs
    · cases hs
    · rename_i num k w hw
      obtain ⟨e', hdel, rfl⟩ := Option.map_eq_some_iff.mp hs
      obtain ⟨e₁, hdel₁, hd⟩ := h.inv.deliver_eq hw (End.deliver_cases hdel).2.1
      obtain rfl : e₁ = e' := Option.some.inj (hdel₁.symm.trans hdel)
      have hends := h.ends p
      have hends' := h.ends p.peer
      have hlink := h.inv.link p
      rw [hw] at hends hlink
      rw [Side.peer_peer] at hends'
      refine Side.forall_of p ?_ ?_
      · rw [take_ends_self, take_wire_self, take_ends_peer]
        exact hends.delivered hlink (h.inv.sane p.peer) hd
      · rw [take_ends_peer, take_wire_peer, Side.peer_peer, take_ends_self]
        exact hends'.told hd

/-- Nothing has ended yet. -/
theorem End.not_heardEOF_ofChannel {c : Channel} (hp : c.pending = newBuffer)
    (hx : c.extPending = newBuffer) : ¬ (End.ofChannel c).HeardEOF := by
  rintro (⟨s, hs⟩ | ⟨s, hs⟩)
  · cases hs
  · cases s with
    | stdout =>
      have hs' : c.pending.closed = true := hs
      rw [hp] at hs'
      cases hs'
    | stderr =>
      have hs' : c.extPending.closed = true := hs
      rw [hx] at hs'
      cases hs'

theorem Net.politeInv_start (id id' : UInt32) : (Net.start id id').PoliteInv := by
  refine ⟨Net.inv_start id id', Side.forall_of .opener ?_ ?_⟩
  · have hno := End.not_heardEOF_ofChannel (c := granted id id') rfl rfl
    exact ⟨fun _ _ => rfl, fun _ => rfl, fun _ => nofun, fun _ hh => absurd hh hno, .nil,
      fun hh => absurd hh hno, nofun⟩
  · have hno := End.not_heardEOF_ofChannel (c := openChannel id) rfl rfl
    refine ⟨fun _ _ => rfl, fun _ => rfl, fun _ x hx => ?_, fun _ hh => absurd hh hno,
      List.pairwise_singleton _ _, fun hh => absurd hh hno, nofun⟩
    rw [List.mem_singleton.mp hx]
    rfl

/-- In a state of a polite run, who has read to the end has read everything. -/
theorem Net.PoliteInv.got_eq_sent {n : Net} (h : n.PoliteInv) {p : Side} {s : Stream}
    (hsaw : ((n.ends p.peer).lane s).sawEOF = true) :
    ((n.ends p.peer).lane s).got = ((n.ends p).lane s).sent := by
  obtain ⟨hclosed, hempty⟩ := (h.ends p).saw s hsaw
  obtain ⟨hw, hst⟩ := (h.ends p).heard (.inr ⟨s, hclosed⟩)
  obtain ⟨lost, hb, -⟩ := (h.inv.flows p).balanced
  have hsent : ((n.ends p).lane s).sent = ((n.ends p.peer).lane s).got
      ++ (((n.ends p.peer).ch.buffer s).contents
        ++ (dataOf (n.ends p.peer).receiver.stored (some s) ++ dataOf (chunks (n.wire p)) s)) :=
    hb.sent s
  rw [hsent, hempty, hst, hw]
  exact (List.append_nil _).symm

/-- **Who has read to the end has read everything.** Where neither side calls
`CloseWrite` while one of its writes is under way, a read that returned the
end returned it after all the data that was sent, and no data is sent
afterwards; whether the stream was ended or the channel closed, and whatever
else the two sides do. -/
theorem net_eof (id id' : UInt32) {ls : List NetLabel} {n : Net}
    (h : (net id id').run ls = some n) (hc : (net id id').Meets Polite (Net.start id id') ls)
    (p : Side) (s : Stream) (hsaw : ((n.ends p.peer).lane s).sawEOF = true) :
    ((n.ends p.peer).lane s).got = ((n.ends p).lane s).sent := by
  have hinv : n.PoliteInv := Machine.meets_rec (c := Polite) (P := Net.PoliteInv)
    (Net.politeInv_start id id') (fun _ _ _ h hc hs => h.step hc hs) h hc
  exact hinv.got_eq_sent hsaw

/-- One side writes two bytes and ends its stream, and the other one reads. -/
def eofSchedule : List NetLabel :=
  [.deliver .acceptor, .act .opener .handle, .act .opener (.write .stdout [1, 2]),
    .act .opener (.reserve .stdout), .act .opener (.send .stdout), .act .opener .closeWrite,
    .act .opener .sendEOF, .deliver .opener, .act .acceptor .handle, .deliver .opener,
    .act .acceptor .handle, .act .acceptor .handle, .act .acceptor (.read .stdout 8),
    .act .acceptor (.addWindow .stdout), .act .acceptor (.sendAdjust .stdout),
    .act .acceptor (.read .stdout 8)]

theorem net_eof_two : ∃ n, (net 0 7).run eofSchedule = some n
    ∧ (net 0 7).Meets Polite (Net.start 0 7) eofSchedule
    ∧ ((n.ends .acceptor).lane .stdout).sawEOF = true
    ∧ ((n.ends .acceptor).lane .stdout).got = ((n.ends .opener).lane .stdout).sent
    ∧ ((n.ends .opener).lane .stdout).sent = [1, 2] := by
  have hrun : (net 0 7).run eofSchedule = some _ := rfl
  have hpolite : (net 0 7).Meets Polite (Net.start 0 7) eofSchedule := by decide
  exact ⟨_, hrun, hpolite, rfl, net_eof 0 7 hrun hpolite .opener .stdout rfl, rfl⟩

/-- The end of the file overtakes a write that is under way, and the read that
returns it has seen nothing. -/
example : ∃ n, (net 0 7).run [.deliver .acceptor, .act .opener .handle,
      .act .opener (.write .stdout [1, 2]), .act .opener .closeWrite, .act .opener .sendEOF,
      .act .opener (.reserve .stdout), .act .opener (.send .stdout), .deliver .opener,
      .act .acceptor .handle, .act .acceptor .handle, .act .acceptor (.read .stdout 8)] = some n
    ∧ ((n.ends .acceptor).lane .stdout).sawEOF = true
    ∧ ((n.ends .acceptor).lane .stdout).got = []
    ∧ ((n.ends .opener).lane .stdout).sent = [1, 2] :=
  ⟨_, rfl, rfl, rfl, rfl⟩

end Ssh
