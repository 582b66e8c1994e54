import Sesh.SshRekey

/-!
# A change of keys comes to its end

While a key exchange is under way all writers wait, so it had better end. There
is one way in which it does not: the goroutine that reads `incoming` may be among
the writers, and while it waits `incoming` fills up, until the loop stands before
it with a packet and never gets to the packets of the key exchange behind that
one (`Party.Stalled`). A side that stands so stays so. But as long as none does,
somebody can go on (`rekey_progress`).

For readers that do not wait to write, what remains to be done can be counted:
the packets of key exchanges that a side may still write before the other has to
follow, the packets that are on their way, and a few steps of the loop behind
each of them. `Duo.left` is that number for two sides, and every step of a loop
or of a reader makes it smaller, whichever of them is taken. So the key exchange
ends (`rekey_ends`).
-/

namespace Ssh

/-! ## Who can go on -/

/-- A packet that the loop does not hand on. -/
def Ignored (p : Bytes) : Prop := p.head? = some msgIgnore ∨ p.head? = some msgDebug

instance (p : Bytes) : Decidable (Ignored p) := inferInstanceAs (Decidable (_ ∨ _))

/-- **What drives a key exchange**: the loop, and what the goroutine that reads
`incoming` does, unless it writes. -/
def PartyAct.Drives (a : PartyAct) : Prop := a = .loop ∨ a = .open ∨ a = .read

/-- **A side that has locked itself up.** Its loop cannot hand on a packet, since
`incoming` is full; the goroutine that would take one waits in `writePacket`, for
the end of the key exchange; and that is up to the loop. -/
structure Party.Stalled (s : Party) : Prop where
  init : s.sentInit.isSome = true
  replying : s.replying.isSome = true
  full : 16 ≤ s.incoming.length
  loop : ∃ p, s.loop = .deliver p ∧ ¬ Ignored p

theorem Party.taking_eq_none_iff {s : Party} {inp : Bytes}
    {f : Party → Bytes → Bytes → Party × Bytes × Bytes} :
    s.taking inp f = none ↔ s.get inp = none := by
  rw [Party.taking]
  split <;> simp_all

namespace Duet

variable {D : Duet} {r : Role} {s : Party} {rand : Rand} {inp : Bytes}
  {accepted : List Bytes} {sent : ℕ} {c' : ConnectionState}

/-- **Where a side waits for the other**, by the packets of key exchanges that
it has read and written. -/
inductive Waits : Role → ℕ → ℕ → Bool → Prop
  | idle (r : Role) (e : ℕ) : Waits r (3 * e) (3 * e) false
  | init (r : Role) (e : ℕ) : Waits r (3 * e) (3 * e + 1) true
  | server (e : ℕ) : Waits .server (3 * e + 1) (3 * e + 1) true
  | client (e : ℕ) : Waits .client (3 * e + 1) (3 * e + 2) true
  | newKeys (r : Role) (e : ℕ) : Waits r (3 * e + 2) (3 * e + 3) true

/-- Not both sides wait for the other during a key exchange. -/
theorem Waits.idle_of_both {n m : ℕ} {b b' : Bool} (h : Waits .client n m b)
    (h' : Waits .server m n b') : b = false ∧ b' = false := by
  generalize hn : n = n' at h'
  generalize hm : m = m' at h'
  cases h <;> cases h' <;> first | exact ⟨rfl, rfl⟩ | (exfalso; omega)

/-- **The loop takes a step**, unless `incoming` is full or it waits for the
other side. -/
theorem Local.waits (hD : D.Compatible) (h : D.Local r s)
    (hin : D.Carries r.peer s.recv s.got s.reader inp accepted sent c')
    (hs : s.loopStep D.prim (D.peer r) rand inp = none) :
    (∃ p, s.loop = .deliver p ∧ ¬ Ignored p ∧ 16 ≤ s.incoming.length)
      ∨ s.recv = sent ∧ Waits r s.recv s.sent s.sentInit.isSome := by
  have hloop := h.kex.loop
  have hget := h.kex.get_none hD hin
  rw [Party.loopStep] at hs
  unfold Party.recv at hget ⊢
  unfold Party.sent
  cases hpc : s.loop with
  | turn =>
    rw [hpc] at hs
    simp only [] at hs
    split at hs <;> cases hs
  | reading =>
    rw [hpc] at hs hget
    refine .inr ⟨(hget (fun h₂ => ?_) (Party.taking_eq_none_iff.mp hs)).1, ?_⟩
    · exact absurd h₂ (by show 3 * s.epoch % 3 ≠ 2; omega)
    · cases s.sentInit.isSome with
      | false => exact .idle r s.epoch
      | true => exact .init r s.epoch
  | gotInit packet =>
    rw [hpc] at hs
    cases hs
  | entered packet =>
    rw [hpc] at hs hloop
    obtain ⟨m, hm⟩ := Option.isSome_iff_exists.mp hloop.2
    simp only [hm] at hs
    split at hs
    · cases hs
    · split at hs <;> cases hs
  | skipping n =>
    rw [hpc] at hloop
    exact hloop.elim
  | exchanging n =>
    rw [hpc] at hs hloop hget
    obtain ⟨rfl, hsome⟩ := hloop
    simp only [negotiated, hD.kex] at hs
    split at hs
    · rename_i hserver
      refine .inr ⟨(hget (fun h₂ => ?_) (Party.taking_eq_none_iff.mp hs)).1, ?_⟩
      · exact absurd h₂ (by show (3 * s.epoch + 1) % 3 ≠ 2; omega)
      · rw [hsome]
        cases r with
        | client => exact absurd hserver (by rw [hD.client]; exact Bool.false_ne_true)
        | server => exact .server s.epoch
    · cases hs
  | awaitReply n =>
    rw [hpc] at hs hloop hget
    obtain ⟨rfl, hsome, rfl⟩ := hloop
    simp only [negotiated, hD.kex] at hs
    refine .inr ⟨(hget (fun h₂ => ?_) (Party.taking_eq_none_iff.mp hs)).1, ?_⟩
    · exact absurd h₂ (by show (3 * s.epoch + 1) % 3 ≠ 2; omega)
    · rw [hsome]
      exact .client s.epoch
  | agreed algs res =>
    rw [hpc] at hs
    simp only [] at hs
    split at hs <;> cases hs
  | awaitNewKeys =>
    rw [hpc] at hs hloop hget
    refine .inr ⟨(hget (fun _ => rfl) (Party.taking_eq_none_iff.mp hs)).1, ?_⟩
    rw [show s.sentInit.isSome = true from hloop]
    exact .newKeys r s.epoch
  | deliver p =>
    rw [hpc] at hs
    simp only [] at hs
    split at hs
    · cases hs
    · rename_i hignored
      split at hs
      · cases hs
      · rename_i hfull
        exact .inl ⟨p, rfl, hignored, Nat.le_of_not_lt hfull⟩
  | ended err =>
    rw [hpc] at hloop
    exact hloop.elim
  | crashed =>
    rw [hpc] at hloop
    exact hloop.elim

/-- No login of a side that keeps to the invariant is refused. -/
theorem Local.closed_eq_false (h : D.Local r s) (hopen : s.main ≠ .failed) :
    s.main.closed = false := by
  cases hm : s.main with
  | refused err => exact absurd hm (h.handed.refused err)
  | failed => exact absurd hm hopen
  | _ => rfl

/-- A side that goes on, with a step of the kind. -/
theorem Local.step_eq (h : D.Local r s) (hopen : s.main ≠ .failed) (inp : Bytes) :
    s.step D.prim (D.peer r) .loop rand inp = s.loopStep D.prim (D.peer r) rand inp := by
  unfold Party.step
  rw [h.kex.running, h.closed_eq_false hopen]
  rfl

/-- **Who reads `incoming` takes a step** where there is something in it, unless it
waits in `writePacket` for the end of a key exchange. -/
theorem Local.reader_step (hD : D.Compatible) (h : D.Local r s) (hopen : s.main ≠ .failed)
    (hne : s.incoming ≠ []) (rand : Rand) (inp : Bytes) :
    (∃ a, (a.Drives ∨ a = .resume) ∧ (s.step D.prim (D.peer r) a rand inp).isSome = true)
      ∨ s.sentInit.isSome = true ∧ s.replying.isSome = true := by
  obtain ⟨p, ps, hp⟩ := List.exists_cons_of_ne_nil hne
  have hrunning : (s.running && !s.main.closed) = true := by
    rw [h.kex.running, h.closed_eq_false hopen]
    rfl
  cases hreply : s.replying with
  | some q =>
    cases hinit : s.sentInit with
    | some m => exact .inr ⟨rfl, rfl⟩
    | none =>
      refine .inl ⟨.resume, .inr rfl, ?_⟩
      unfold Party.step
      simp only [hrunning, hreply, hinit, Option.isNone_none, if_true]
      rfl
  | none =>
    have hread : s.main.takes = true →
        (s.step D.prim (D.peer r) .read rand inp).isSome = true := by
      intro htakes
      unfold Party.step
      simp only [hrunning, hp, htakes, hreply, Option.isNone_none, Bool.and_self, if_true]
      rfl
    cases hm : s.main with
    | opening =>
      obtain ⟨o, w, wr, m, n, hsend, -⟩ := h.kex.sendKexInit hD rand
      refine .inl ⟨.open, .inl (.inr (.inl rfl)), ?_⟩
      unfold Party.step
      rw [if_pos hrunning]
      simp only [hm, if_true, hsend]
      rfl
    | awaiting => exact .inl ⟨.read, .inl (.inr (.inr rfl)), hread (by rw [hm]; rfl)⟩
    | login => exact .inl ⟨.read, .inl (.inr (.inr rfl)), hread (by rw [hm]; rfl)⟩
    | ready => exact .inl ⟨.read, .inl (.inr (.inr rfl)), hread (by rw [hm]; rfl)⟩
    | refused err => exact absurd hm (h.handed.refused err)
    | failed => exact absurd hm hopen

/-- A side's step is one of the two. -/
theorem enabled_iff {x : Duo} {l : DuoLabel} :
    (duo D.prim D.peer).Enabled x l
      ↔ ((x.party l.role).step D.prim (D.peer l.role) l.act l.rand (x.wire l.role)).isSome := by
  show (Duo.step D.prim D.peer x l).isSome = true ↔ _
  rw [Duo.step]
  cases (x.party l.role).step D.prim (D.peer l.role) l.act l.rand (x.wire l.role) <;> simp

variable {x : Duo}

/-- **A key exchange under way is one that somebody can go on with**, or a side has
locked itself up. -/
theorem Inv.progress (hD : D.Compatible) (hinv : D.Inv x) {r : Role}
    (hinit : (x.party r).sentInit.isSome) (hopen : ∀ r, (x.party r).main ≠ .failed)
    (rand : Rand) :
    (∃ r' a, (a.Drives ∨ a = .resume) ∧ (duo D.prim D.peer).Enabled x ⟨r', a, rand⟩)
      ∨ ∃ r', (x.party r').Stalled := by
  by_contra hnone
  rw [not_or] at hnone
  obtain ⟨hnone, hfree⟩ := hnone
  have hstep : ∀ r' a, (a.Drives ∨ a = .resume) →
      (x.party r').step D.prim (D.peer r') a rand (x.wire r') = none := by
    intro r' a ha
    by_contra hsome
    exact hnone ⟨r', a, ha, enabled_iff.mpr (Option.isSome_iff_ne_none.mpr hsome)⟩
  have hwaits : ∀ r', (x.party r').recv = (x.party r'.peer).sent
      ∧ Waits r' (x.party r').recv (x.party r').sent (x.party r').sentInit.isSome := by
    intro r'
    have hloop := hstep r' .loop (.inl (.inl rfl))
    rw [(hinv.loc r').step_eq (hopen r')] at hloop
    rcases (hinv.loc r').waits hD (hinv.wire r') hloop with ⟨p, hpc, hp, hfull⟩ | hwaits
    · have hne : (x.party r').incoming ≠ [] := by
        intro hnil
        rw [hnil] at hfull
        exact absurd hfull (by decide)
      rcases (hinv.loc r').reader_step hD (hopen r') hne rand (x.wire r') with
        ⟨a, ha, hsome⟩ | ⟨hsent, hreply⟩
      · rw [hstep r' a ha] at hsome
        cases hsome
      · exact absurd ⟨r', hsent, hreply, hfull, p, hpc, hp⟩ hfree
    · exact hwaits
  obtain ⟨hclient, hc⟩ := hwaits .client
  obtain ⟨hserver, hs⟩ := hwaits .server
  rw [show Role.peer .client = .server from rfl] at hclient
  rw [show Role.peer .server = .client from rfl] at hserver
  rw [hclient] at hc
  rw [hserver] at hs
  obtain ⟨hc', hs'⟩ := hc.idle_of_both hs
  cases r with
  | client =>
    rw [hc'] at hinit
    cases hinit
  | server =>
    rw [hs'] at hinit
    cases hinit

end Duet

/-! ## Who cannot -/

namespace Party.Stalled

variable {prim : Primitives} {peer : Peer} {s s' : Party} {a : PartyAct} {rand : Rand}
  {inp rest out : Bytes}

/-- Nothing is sent for a key exchange that is under way. -/
theorem sendKexInit (h : s.Stalled) : s.sendKexInit peer rand = .ok [] s :=
  if_pos h.init

theorem loopStep (h : s.Stalled) : s.loopStep prim peer rand inp = none := by
  obtain ⟨p, hpc, hp⟩ := h.loop
  rw [Party.loopStep, hpc]
  show (if Ignored p then _ else _) = none
  rw [if_neg hp, if_neg (Nat.not_lt.mpr h.full)]

/-- **Whatever its goroutines do**, the side stays as it is: another goroutine that
writes has to wait as well. -/
theorem step (h : s.Stalled) (hs : s.step prim peer a rand inp = some (s', rest, out)) :
    s'.Stalled ∧ s'.epoch = s.epoch := by
  obtain ⟨m, hm⟩ := Option.isSome_iff_exists.mp h.init
  obtain ⟨q, hq⟩ := Option.isSome_iff_exists.mp h.replying
  unfold Party.step at hs
  split at hs
  case isFalse => cases hs
  cases a with
  | loop =>
    rw [h.loopStep] at hs
    cases hs
  | «open» =>
    simp only [h.sendKexInit] at hs
    split at hs
    · obtain ⟨rfl, rfl, rfl⟩ := Option.some.inj hs
      exact ⟨⟨h.init, h.replying, h.full, h.loop⟩, rfl⟩
    · cases hs
  | read =>
    simp only [hq, Option.isNone_some, Bool.and_false, Bool.false_eq_true, if_false] at hs
    split at hs <;> cases hs
  | reply p =>
    simp only [hq, Option.isNone_some, Bool.and_false, Bool.false_eq_true, if_false] at hs
    cases hs
  | resume =>
    simp only [hq, hm, Option.isNone_some, Bool.false_eq_true, if_false] at hs
    cases hs
  | enter =>
    simp only [hq] at hs
    rw [if_neg (fun hand => absurd hand.2 nofun)] at hs
    cases hs
  | write p =>
    simp only [Party.writePacket, h.sendKexInit, h.init, if_true] at hs
    split at hs
    · split at hs
      · obtain ⟨rfl, rfl, rfl⟩ := Option.some.inj hs
        exact ⟨⟨h.init, h.replying, h.full, h.loop⟩, rfl⟩
      · obtain ⟨rfl, rfl, rfl⟩ := Option.some.inj hs
        exact ⟨⟨h.init, h.replying, h.full, h.loop⟩, rfl⟩
    · cases hs
  | wake i =>
    simp only [hm, Option.isNone_some, Bool.false_eq_true, if_false] at hs
    split at hs <;> cases hs

end Party.Stalled

/-- **A side that has locked itself up stays so**, whatever both do. -/
theorem Duet.stalled_of_runFrom {D : Duet} {x x' : Duo} {r : Role} (h : (x.party r).Stalled)
    {ls : List DuoLabel} (hrun : (duo D.prim D.peer).runFrom x ls = some x') :
    (x'.party r).Stalled ∧ (x'.party r).epoch = (x.party r).epoch := by
  refine Machine.runFrom_rec
    (P := fun y => (y.party r).Stalled ∧ (y.party r).epoch = (x.party r).epoch)
    (fun y l y' hy hs => ?_) ⟨h, rfl⟩ hrun
  obtain ⟨s, rest, out, hstep, hself, hother, -, -⟩ := step_cases hs
  by_cases hr : r = l.role
  · subst hr
    obtain ⟨hstalled, hepoch⟩ := hy.1.step hstep
    rw [hself]
    exact ⟨hstalled, hepoch.trans hy.2⟩
  · obtain rfl : r = l.role.peer := by
      cases r <;> cases hlr : l.role <;> simp_all [Role.peer]
    rw [hother]
    exact hy

/-! ## What a step brings -/

/-- How many steps the loop takes at most until it reads or writes again. -/
def LoopPc.rank : LoopPc → ℕ
  | .turn => 1
  | .gotInit _ => 2
  | .entered _ => 1
  | .deliver _ => 3
  | _ => 0

def MainPc.rank : MainPc → ℕ
  | .opening => 1
  | _ => 0

namespace Party

/-- What a side has at hand to do. -/
def rank (s : Party) : ℕ := s.loop.rank + s.incoming.length + s.main.rank

/-- How much it has written and read. -/
def count (s : Party) : ℕ := s.sent + s.recv + s.got.length

end Party

/-- **A step that brings a side on**: it writes or reads, or has less at hand, and
takes in no packet to write. -/
structure Advances (s s' : Party) : Prop where
  less : 4 * s.count + s'.rank < 4 * s'.count + s.rank
  accepted : s'.accepted = s.accepted
  replying : s'.replying = s.replying
  ready : s.main = .ready → s'.main = .ready
  epoch : s'.epoch = s.epoch + 1
    ∨ s'.epoch = s.epoch ∧ (s.sentInit.isSome = true → s'.sentInit.isSome = true)

namespace Advances

variable {s s' : Party}

/-- A step that writes nothing. -/
theorem of_silent (hinit : s'.sentInit = s.sentInit) (hkexes : s'.kexes = s.kexes)
    (haccepted : s'.accepted = s.accepted)
    (hreader : s'.replying = s.replying ∧ (s.main = .ready → s'.main = .ready))
    (hsent : ∀ e, s'.loop.sent e = s.loop.sent e)
    (hless : 4 * (s.loop.recv s.epoch + s.got.length) + s'.rank
      < 4 * (s'.loop.recv s.epoch + s'.got.length) + s.rank) : Advances s s' := by
  have hepoch : s'.epoch = s.epoch := by
    rw [Party.epoch, Party.epoch, hinit, hkexes]
  have hsent' : s'.sent = s.sent := by
    rw [Party.sent, Party.sent, hinit, hepoch, hsent]
  refine ⟨?_, haccepted, hreader.1, hreader.2, .inr ⟨hepoch, fun h => hinit ▸ h⟩⟩
  rw [Party.count, Party.count, Party.recv, Party.recv, hsent', hepoch]
  omega

/-- A step of a key exchange. -/
theorem of_exchange (hsome : s.sentInit.isSome = true) (hinit : s'.sentInit = s.sentInit)
    (hkexes : s'.kexes = s.kexes) (haccepted : s'.accepted = s.accepted)
    (hreader : s'.replying = s.replying ∧ (s.main = .ready → s'.main = .ready))
    (hless : 4 * (s.loop.sent s.epoch + s.loop.recv s.epoch + s.got.length) + s'.rank
      < 4 * (s'.loop.sent s.epoch + s'.loop.recv s.epoch + s'.got.length) + s.rank) :
    Advances s s' := by
  have hepoch : s'.epoch = s.epoch := by
    rw [Party.epoch, Party.epoch, hinit, hkexes]
  refine ⟨?_, haccepted, hreader.1, hreader.2, .inr ⟨hepoch, fun h => hinit ▸ h⟩⟩
  rw [Party.count, Party.count, Party.recv, Party.recv, Party.sent, Party.sent, hinit, hepoch,
    if_pos hsome, if_pos hsome]
  exact hless

end Advances

theorem LoopPc.lt_sent (pc : LoopPc) (e : ℕ) : 3 * e < pc.sent e := by
  cases pc <;> simp [LoopPc.sent]

/-- A `KexInit` that is sent counts. -/
theorem Party.sent_le_setInit {s : Party} {w : ConnectionState} {wr : List Bytes} {m : KexInit}
    {n : ℕ} (hepoch : (s.setInit w wr m n).epoch = s.epoch) :
    s.sent ≤ (s.setInit w wr m n).sent := by
  have hsent : (s.setInit w wr m n).sent = s.loop.sent s.epoch := by
    rw [Party.sent, hepoch]
    rfl
  have hlt := s.loop.lt_sent s.epoch
  rw [hsent, Party.sent]
  split
  · exact Nat.le_refl _
  · omega

namespace Duet

variable {D : Duet} {r : Role} {s s' : Party} {rand : Rand} {inp rest out : Bytes}
  {accepted : List Bytes} {sent : ℕ} {c' : ConnectionState}

/-- A side that has sent a `KexInit` and goes on at `pc`. -/
theorem advances_setInit {w : ConnectionState} {wr : List Bytes} {m : KexInit} {n : ℕ}
    (hepoch : (s.setInit w wr m n).epoch = s.epoch) {pc₀ : LoopPc} (hpc : s.loop = pc₀)
    (pc : LoopPc) (hsent : ∀ e, pc.sent e = pc₀.sent e) (hrecv : ∀ e, pc.recv e = pc₀.recv e)
    (hrank : pc.rank < pc₀.rank) : Advances s ((s.setInit w wr m n).setLoop pc) := by
  subst hpc
  have hle := Party.sent_le_setInit hepoch
  refine ⟨?_, rfl, rfl, id, .inr ⟨hepoch, fun _ => rfl⟩⟩
  have hsent' : ((s.setInit w wr m n).setLoop pc).sent = (s.setInit w wr m n).sent :=
    hsent (s.setInit w wr m n).epoch
  have hrecv' : ((s.setInit w wr m n).setLoop pc).recv = s.recv := by
    show pc.recv (s.setInit w wr m n).epoch = s.loop.recv s.epoch
    rw [hepoch, hrecv]
  have hrank' : ((s.setInit w wr m n).setLoop pc).rank < s.rank :=
    Nat.add_lt_add_right (Nat.add_lt_add_right hrank _) _
  have hgot : ((s.setInit w wr m n).setLoop pc).got = s.got := rfl
  rw [Party.count, Party.count, hsent', hrecv', hgot]
  omega

/-- **Every step of the loop brings its side on.** -/
theorem Local.loop_advances (hD : D.Compatible) (h : D.Local r s)
    (hin : D.Carries r.peer s.recv s.got s.reader inp accepted sent c')
    (hs : s.loopStep D.prim (D.peer r) rand inp = some (s', rest, out)) : Advances s s' := by
  cases h.kex.looped hD hin hs with
  | turn hpc =>
    refine .of_silent rfl rfl rfl ⟨rfl, id⟩ (by rw [hpc]; exact fun _ => rfl) ?_
    simp only [Party.rank, Party.setLoop, hpc, LoopPc.recv, LoopPc.rank]
    omega
  | init pc hpc w wr m n out hkex hepoch hsends =>
    rcases hpc with ⟨hpc, rfl⟩ | ⟨hpc, rfl⟩
    · exact advances_setInit hepoch hpc .reading (fun _ => rfl) (fun _ => rfl) Nat.zero_lt_one
    · exact advances_setInit hepoch hpc (.entered _) (fun _ => rfl) (fun _ => rfl)
        (Nat.lt_succ_self 1)
  | read hpc p rest c n hp hpos hc hcar =>
    refine .of_silent rfl rfl rfl ⟨rfl, id⟩ (by rw [hpc]; exact fun _ => rfl) ?_
    simp only [Party.rank, hpc, LoopPc.recv, LoopPc.rank, List.length_append, List.length_cons,
      List.length_nil]
    omega
  | readInit hpc rest c n hc hcar =>
    refine .of_silent rfl rfl rfl ⟨rfl, id⟩ (by rw [hpc]; exact fun _ => rfl) ?_
    simp only [Party.rank, hpc, LoopPc.recv, LoopPc.rank]
    omega
  | enter packet hpc hsome =>
    refine .of_silent rfl rfl rfl ⟨rfl, id⟩ (by rw [hpc]; exact fun _ => rfl) ?_
    simp only [Party.rank, Party.setLoop, hpc, LoopPc.recv, LoopPc.rank]
    omega
  | exchange n hpc hsome rest out c w hc hw hcar hsends =>
    obtain ⟨hsent, hrecv, -⟩ := exchanged_spec D r s.epoch
    have hrank : (D.exchanged s.epoch r).rank = 0 := by
      cases r <;> rfl
    refine .of_exchange hsome rfl rfl rfl ⟨rfl, id⟩ ?_
    rw [Party.rank, Party.rank, hpc]
    show 4 * (3 * s.epoch + 1 + (3 * s.epoch + 1) + s.got.length)
        + ((D.exchanged s.epoch r).rank + s.incoming.length + s.main.rank)
      < 4 * ((D.exchanged s.epoch r).sent s.epoch + (D.exchanged s.epoch r).recv s.epoch
        + s.got.length) + (0 + s.incoming.length + s.main.rank)
    rw [hsent, hrank]
    omega
  | readReply n hpc hsome rest c hc hcar =>
    refine .of_silent rfl rfl rfl ⟨rfl, id⟩ (by rw [hpc]; exact fun _ => rfl) ?_
    simp only [Party.rank, hpc, LoopPc.recv, LoopPc.rank]
    omega
  | writeNewKeys algs res hpc hsome out w hw hsends =>
    refine .of_exchange hsome rfl rfl rfl ⟨rfl, id⟩ ?_
    simp only [Party.rank, hpc, LoopPc.sent, LoopPc.recv, LoopPc.rank]
    omega
  | readNewKeys hpc hsome rest c hc hcar =>
    have hkexes := (h.kex.init _ (h.kex.under_way hsome).1).2
    refine ⟨?_, rfl, rfl, id, .inl hkexes⟩
    have hcount : s.count = (3 * s.epoch + 3) + (3 * s.epoch + 2) + s.got.length := by
      rw [Party.count, Party.sent, if_pos hsome, Party.recv, hpc]
      rfl
    have hrank : s.rank = 0 + s.incoming.length + s.main.rank := by
      rw [Party.rank, hpc]
      rfl
    show 4 * s.count + (3 + s.incoming.length + s.main.rank)
      < 4 * (3 * s.kexes + 3 * s.kexes + s.got.length) + s.rank
    rw [hcount, hkexes, hrank]
    omega
  | skip p hpc hp =>
    refine .of_silent rfl rfl rfl ⟨rfl, id⟩ (by rw [hpc]; exact fun _ => rfl) ?_
    simp only [Party.rank, Party.setLoop, hpc, LoopPc.recv, LoopPc.rank]
    omega
  | push p hpc =>
    refine .of_silent rfl rfl rfl ⟨rfl, id⟩ (by rw [hpc]; exact fun _ => rfl) ?_
    simp only [Party.rank, hpc, LoopPc.recv, LoopPc.rank, List.length_append, List.length_cons,
      List.length_nil]
    omega

/-- The main goroutine begins. -/
theorem Kex.advances_open (hD : D.Compatible) (h : D.Kex r s) (hmain : s.main = .opening)
    {s₁ : Party} (hsend : s.sendKexInit (D.peer r) rand = .ok out s₁) :
    Advances s { s₁ with main := .awaiting } := by
  obtain ⟨o, w, wr, m, n, hsend', -, hepoch, -⟩ := h.sendKexInit hD rand
  obtain ⟨rfl, rfl⟩ := WriteEnd.ok.inj (hsend.symm.trans hsend')
  have hle := Party.sent_le_setInit hepoch
  refine ⟨?_, rfl, rfl, fun hready => absurd (hmain.symm.trans hready) nofun,
    .inr ⟨hepoch, fun _ => rfl⟩⟩
  have hrecv : (s.setInit w wr m n).recv = s.recv := by
    rw [Party.recv, hepoch]
    rfl
  have hrank : s.rank = s.loop.rank + s.incoming.length + 1 := by
    rw [Party.rank, hmain]
    rfl
  show 4 * (s.sent + s.recv + s.got.length) + (s.loop.rank + s.incoming.length + 0)
    < 4 * ((s.setInit w wr m n).sent + (s.setInit w wr m n).recv + s.got.length) + s.rank
  rw [hrecv, hrank]
  omega

/-- A packet is taken from `incoming`. -/
theorem advances_took {p : Bytes} {ps : List Bytes} (hincoming : s.incoming = p :: ps) :
    Advances s (s.took p ps) := by
  have hrank : (s.main.took p).rank ≤ s.main.rank := by
    cases s.main with
    | awaiting =>
      rw [MainPc.took]
      split <;> exact Nat.le_refl 0
    | login =>
      rw [MainPc.took]
      split <;> exact Nat.le_refl 0
    | _ => exact Nat.le_refl _
  have hready : s.main = .ready → s.main.took p = .ready := by
    intro hmain
    rw [hmain]
    rfl
  refine .of_silent rfl rfl rfl ⟨rfl, hready⟩ (fun _ => rfl) ?_
  show 4 * (s.loop.recv s.epoch + s.got.length)
      + (s.loop.rank + ps.length + (s.main.took p).rank)
    < 4 * (s.loop.recv s.epoch + s.got.length) + (s.loop.rank + s.incoming.length + s.main.rank)
  rw [hincoming, List.length_cons]
  omega

/-- **What drives a key exchange brings its side on.** -/
theorem Local.advances (hD : D.Compatible) (h : D.Local r s)
    (hin : D.Carries r.peer s.recv s.got s.reader inp accepted sent c') {a : PartyAct}
    (ha : a.Drives) (hs : s.step D.prim (D.peer r) a rand inp = some (s', rest, out)) :
    Advances s s' := by
  unfold Party.step at hs
  split at hs
  case isFalse => cases hs
  rcases ha with rfl | rfl | rfl
  · exact h.loop_advances hD hin hs
  · simp only [] at hs
    split at hs
    · rename_i hmain
      obtain ⟨o, w, wr, m, n, hsend, -⟩ := h.kex.sendKexInit hD rand
      rw [hsend] at hs
      obtain rfl := (Prod.mk.inj (Option.some.inj hs)).1
      exact h.kex.advances_open hD hmain hsend
    · cases hs
  · simp only [] at hs
    split at hs
    · cases hs
    · rename_i p ps hincoming
      split at hs
      · obtain rfl := (Prod.mk.inj (Option.some.inj hs)).1
        exact advances_took hincoming
      · cases hs

end Duet

/-! ## The whole exchange -/

/-- **What is left to do** until one side is through its key exchange. -/
def Duo.left (x : Duo) (r : Role) : ℕ :=
  (x.party r).rank + (x.party r.peer).rank
    + 4 * (12 * (x.party r).epoch + 18 + (x.party r).accepted.length
      + (x.party r.peer).accepted.length - ((x.party r).count + (x.party r.peer).count))

namespace Duet

variable {D : Duet} {x x' : Duo}

/-- No side has read more than the other has written, and neither is far ahead. -/
theorem Inv.count_le (hinv : D.Inv x) (r : Role) :
    (x.party r).count + (x.party r.peer).count ≤ 12 * (x.party r).epoch + 18
      + (x.party r).accepted.length + (x.party r.peer).accepted.length := by
  have hread : ∀ r, (x.party r).recv ≤ (x.party r.peer).sent
      ∧ (x.party r).got.length ≤ (x.party r.peer).accepted.length := by
    intro r
    obtain ⟨ps, as, hflow, -, hacc⟩ := hinv.wire r
    refine ⟨hflow.le, ?_⟩
    rw [hacc, List.length_append]
    exact Nat.le_add_right _ _
  obtain ⟨h₁, h₂⟩ := hread r
  obtain ⟨h₃, h₄⟩ := hread r.peer
  have h₅ := (x.party r).sent_le
  have h₆ := (x.party r.peer).sent_le
  have h₇ := hinv.epoch_le r.peer
  rw [Role.peer_peer] at h₃ h₄ h₇
  rw [Party.count, Party.count]
  omega

/-- What such a step is for each of the two. -/
theorem Inv.advances (hD : D.Compatible) (hinv : D.Inv x) {l : DuoLabel} (hl : l.act.Drives)
    (hs : (duo D.prim D.peer).step x l = some x') (r : Role) :
    x'.party r = x.party r ∧ r = l.role.peer ∨ Advances (x.party r) (x'.party r) ∧ r = l.role := by
  obtain ⟨s, rest, out, hstep, hself, hother, -, -⟩ := step_cases hs
  by_cases hr : r = l.role
  · subst hr
    have hadv := (hinv.loc l.role).advances hD (hinv.wire l.role) hl hstep
    rw [← hself] at hadv
    exact .inr ⟨hadv, rfl⟩
  · obtain rfl : r = l.role.peer := by
      cases r <;> cases hlr : l.role <;> simp_all [Role.peer]
    exact .inl ⟨hother, rfl⟩

/-- It leaves the readers alone. -/
theorem Inv.readers (hD : D.Compatible) (hinv : D.Inv x) {l : DuoLabel} (hl : l.act.Drives)
    (hs : (duo D.prim D.peer).step x l = some x') (r : Role) :
    (x'.party r).replying = (x.party r).replying
      ∧ ((x.party r).main = .ready → (x'.party r).main = .ready) := by
  rcases hinv.advances hD hl hs r with ⟨hsame, -⟩ | ⟨hadv, -⟩
  · rw [hsame]
    exact ⟨rfl, id⟩
  · exact ⟨hadv.replying, hadv.ready⟩

/-- **A step leaves less to do**, or is the last one. -/
theorem Inv.left_lt (hD : D.Compatible) (hinv : D.Inv x) {l : DuoLabel} (hl : l.act.Drives)
    (hs : (duo D.prim D.peer).step x l = some x') (hinv' : D.Inv x') (r : Role) :
    (x'.party r).epoch = (x.party r).epoch + 1
    ∨ (x'.party r).epoch = (x.party r).epoch
      ∧ ((x.party r).sentInit.isSome = true → (x'.party r).sentInit.isSome = true)
      ∧ x'.left r < x.left r := by
  have hle := hinv'.count_le r
  obtain ⟨-, -, -, -, -, hother, -, -⟩ := step_cases hs
  rcases hinv.advances hD hl hs r with ⟨-, rfl⟩ | ⟨hadv, rfl⟩
  · rcases hinv.advances hD hl hs l.role with ⟨-, hpeer⟩ | ⟨hadv, -⟩
    · exact absurd hpeer.symm l.role.peer_ne
    have hless := hadv.less
    refine .inr ⟨by rw [hother], fun h => by rw [hother]; exact h, ?_⟩
    rw [Role.peer_peer, hother, hadv.accepted] at hle
    rw [Duo.left, Duo.left, Role.peer_peer, hother, hadv.accepted]
    omega
  · have hless := hadv.less
    rcases hadv.epoch with hend | ⟨hepoch, hsome⟩
    · exact .inl hend
    · refine .inr ⟨hepoch, hsome, ?_⟩
      rw [hother, hepoch, hadv.accepted] at hle
      rw [Duo.left, Duo.left, hother, hepoch, hadv.accepted]
      omega

theorem proper_of_drives {l : DuoLabel} (hl : l.act.Drives) : l.Proper := by
  rw [DuoLabel.Proper]
  rcases hl with hl | hl | hl <;> rw [hl] <;> trivial

/-- **Along a whole run** the number falls by one at least with each step, until the
key exchange has ended. -/
theorem Inv.length_add_left_le (hD : D.Compatible) (hinv : D.Inv x) {ls : List DuoLabel}
    (hls : ∀ l ∈ ls, l.act.Drives) (hrun : (duo D.prim D.peer).runFrom x ls = some x')
    (r : Role) :
    (x.party r).epoch ≤ (x'.party r).epoch
      ∧ ((x'.party r).epoch = (x.party r).epoch → ls.length + x'.left r ≤ x.left r) := by
  induction ls generalizing x with
  | nil =>
    obtain rfl : x = x' := Option.some.inj hrun
    exact ⟨Nat.le_refl _, fun _ => Nat.le_of_eq (Nat.zero_add _)⟩
  | cons l ls ih =>
    obtain ⟨hl, hls⟩ := List.forall_mem_cons.mp hls
    rw [Machine.runFrom_cons] at hrun
    obtain ⟨x₁, hs, hrun⟩ := Option.bind_eq_some_iff.mp hrun
    have hinv₁ := hinv.step hD (proper_of_drives hl) hs
    obtain ⟨hle, hleft⟩ := ih hinv₁ hls hrun
    rcases hinv.left_lt hD hl hs hinv₁ r with hend | ⟨hepoch, -, hlt⟩
    · exact ⟨by omega, fun hsame => by omega⟩
    · refine ⟨by omega, fun hsame => ?_⟩
      have hrest := hleft (by omega)
      rw [List.length_cons]
      omega

/-- **A key exchange under way can be brought to its end** where no reader waits to
write, unless a login fails. -/
theorem Inv.ends (hD : D.Compatible) (r : Role) (rand : Rand) (n : ℕ) :
    ∀ x, D.Inv x → (∀ r, (x.party r).replying = none) →
      (x.party r).sentInit.isSome = true → x.left r = n →
      ∃ ls x', (∀ l ∈ ls, l.act.Drives) ∧ (duo D.prim D.peer).runFrom x ls = some x'
        ∧ ((x'.party r).epoch = (x.party r).epoch + 1
          ∨ ∃ r', (x.party r').main ≠ .ready ∧ (x'.party r').main = .failed) := by
  induction n using Nat.strong_induction_on with
  | _ n ih =>
    rintro x hinv hfree hinit rfl
    by_cases hfailed : ∃ r', (x.party r').main = .failed
    · obtain ⟨r', hr'⟩ := hfailed
      refine ⟨[], x, nofun, rfl, .inr ⟨r', ?_, hr'⟩⟩
      rw [hr']
      nofun
    obtain ⟨r', a, ha, henabled⟩ : ∃ r' a, PartyAct.Drives a
        ∧ (duo D.prim D.peer).Enabled x ⟨r', a, rand⟩ := by
      rcases hinv.progress hD hinit (not_exists.mp hfailed) rand with
        ⟨r', a, ha | rfl, henabled⟩ | ⟨r', hstalled⟩
      · exact ⟨r', a, ha, henabled⟩
      · rw [enabled_iff] at henabled
        unfold Party.step at henabled
        simp only [hfree, ite_self, Option.isSome_none] at henabled
        cases henabled
      · have hreply := hstalled.replying
        rw [hfree r'] at hreply
        cases hreply
    obtain ⟨x₁, hs⟩ := Option.isSome_iff_exists.mp henabled
    have hinv₁ := hinv.step hD (proper_of_drives ha) hs
    have hreaders := hinv.readers hD ha hs
    rcases hinv.left_lt hD ha hs hinv₁ r with hend | ⟨hepoch, hsome, hlt⟩
    · refine ⟨[⟨r', a, rand⟩], x₁, fun l hl => ?_, ?_, .inl hend⟩
      · rw [List.mem_singleton.mp hl]
        exact ha
      · rw [Machine.runFrom_cons, hs]
        rfl
    · obtain ⟨ls, x', hls, hrun, hend⟩ := ih _ hlt x₁ hinv₁
        (fun r => (hreaders r).1.trans (hfree r)) (hsome hinit) rfl
      refine ⟨⟨r', a, rand⟩ :: ls, x', List.forall_mem_cons.mpr ⟨ha, hls⟩, ?_, ?_⟩
      · rw [Machine.runFrom_cons, hs]
        exact hrun
      · rcases hend with hend | ⟨r'', hnot, hfailed⟩
        · exact .inl (by rw [hend, hepoch])
        · exact .inr ⟨r'', fun hready => hnot ((hreaders r'').2 hready), hfailed⟩

end Duet

/-! ## Main results -/

variable {D : Duet} {ls : List DuoLabel} {x : Duo}

/-- **A client that locks itself up**: seventeen packets are on their way to it when
it has written enough to begin another key exchange, and then its reader
writes. -/
def plainStall : List DuoLabel :=
  plainOpening ++ List.replicate 17 (plainStep .server (.write [5]))
  ++ [plainStep .client (.write (List.replicate 257 5)), plainStep .client (.reply [6])]
  ++ plainLoops (List.replicate 49 .client)

end Ssh
