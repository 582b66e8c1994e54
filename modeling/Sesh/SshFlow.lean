import Sesh.SshLink

/-!
# The flow of data through a channel

Two ends of a channel work on it at the same time, and packets are under way
in both directions. The machine `Ssh.net` interleaves all of that: at each
end the goroutines that write, read, close and send requests, and the one
that handles packets, and between them two wires that keep the order of what
is sent. The connection carries everything it has accepted; that it can fail
is left out.

In each direction the two ends are a flow of credit: every step of the
machine is a move, or a few moves, of `CreditFlow.machine` there
(`Ssh.Flows`). The accounts of that machine say that data in flight fits in
the window and that credit in flight does not overflow it, and so no packet
is ever refused: neither loop that reads packets ever ends with an error
(`net_failed`). They also say that what one side sent is what the other side
has read, what it holds, and what is under way (`net_delivers`).
-/

namespace Ssh

open Channel CreditFlow

/-! ## The two sides -/

inductive Side
  | opener
  | acceptor
  deriving DecidableEq, Repr

/-- The other side. -/
def Side.peer : Side → Side
  | .opener => .acceptor
  | .acceptor => .opener

@[simp] theorem Side.peer_peer (p : Side) : p.peer.peer = p := by
  cases p <;> rfl

theorem Side.peer_ne (p : Side) : p.peer ≠ p := by
  cases p <;> nofun

theorem Side.forall_of (p : Side) {P : Side → Prop} (h : P p) (h' : P p.peer) (r : Side) : P r := by
  cases p <;> cases r <;> assumption

/-- **Two ends and what is under way**: the packets each side has sent and
that have not arrived, oldest first, with the number of the channel they
carry. -/
structure Net where
  ends : Side → End
  wire : Side → List (UInt32 × Pkt)

/-- A step of one side, or the arrival of the oldest packet of a side. -/
inductive NetLabel
  | act (p : Side) (a : End.Act)
  | deliver (p : Side)

/-- A side has taken a step and sent some packets. -/
def Net.put (n : Net) (p : Side) (e : End) (ps : List Pkt) : Net where
  ends := Function.update n.ends p e
  wire := Function.update n.wire p (n.wire p ++ ps.map (fun k => ((n.ends p).ch.remoteId, k)))

/-- A packet of a side has arrived, and the packets `w` are left. -/
def Net.take (n : Net) (p : Side) (w : List (UInt32 × Pkt)) (e : End) : Net where
  ends := Function.update n.ends p.peer e
  wire := Function.update n.wire p w

/-- **What a step does.** -/
def Net.step (n : Net) : NetLabel → Option Net
  | .act p a => ((n.ends p).act a).map (fun r => n.put p r.1 r.2)
  | .deliver p =>
    match n.wire p with
    | [] => none
    | (id, k) :: w => ((n.ends p.peer).deliver (k.bytes id)).map (n.take p w)

section Updates

variable (n : Net) (p : Side) (e : End) (ps : List Pkt) (w : List (UInt32 × Pkt))

@[simp] theorem Net.put_ends_self : (n.put p e ps).ends p = e := Function.update_self ..

@[simp] theorem Net.put_ends_peer : (n.put p e ps).ends p.peer = n.ends p.peer :=
  Function.update_of_ne p.peer_ne ..

@[simp] theorem Net.put_wire_self :
    (n.put p e ps).wire p = n.wire p ++ ps.map (fun k => ((n.ends p).ch.remoteId, k)) :=
  Function.update_self ..

@[simp] theorem Net.put_wire_peer : (n.put p e ps).wire p.peer = n.wire p.peer :=
  Function.update_of_ne p.peer_ne ..

@[simp] theorem Net.take_ends_self : (n.take p w e).ends p = n.ends p :=
  Function.update_of_ne p.peer_ne.symm ..

@[simp] theorem Net.take_ends_peer : (n.take p w e).ends p.peer = e := Function.update_self ..

@[simp] theorem Net.take_wire_self : (n.take p w e).wire p = w := Function.update_self ..

@[simp] theorem Net.take_wire_peer : (n.take p w e).wire p.peer = n.wire p.peer :=
  Function.update_of_ne p.peer_ne ..

end Updates

/-- The channel of the side that was asked, once it has accepted. -/
def granted (id id' : UInt32) : Channel :=
  { newChannel id' .inbound with
    remoteId := id
    maxIncomingPayload := channelMaxPacket
    maxRemotePayload := channelMaxPacket
    decided := true
    remoteWin := ⟨channelWindowSize, false⟩ }

/-- **The side that was asked makes this of the open request**, and answers
with its own terms. -/
theorem accept_handleChannelOpen (id id' : UInt32) (chanType extraData : Bytes) :
    (handleChannelOpen id' ((openChannel id).openMsg chanType extraData)).bind Channel.accept
      = some (granted id id',
          (id, id', UInt32.ofNat channelWindowSize, UInt32.ofNat channelMaxPacket, [], ())) := by
  have hsize : (UInt32.ofNat channelMaxPacket).toNat = channelMaxPacket :=
    UInt32.toNat_ofNat_of_lt' (by decide)
  have hfull : (UInt32.ofNat channelWindowSize).toNat = channelWindowSize :=
    UInt32.toNat_ofNat_of_lt' (by decide)
  show Option.bind (if (UInt32.ofNat channelMaxPacket).toNat < minPacketLength
      ∨ 2 ^ 31 < (UInt32.ofNat channelMaxPacket).toNat then none
    else some { newChannel id' .inbound with
      remoteId := id
      maxRemotePayload := (UInt32.ofNat channelMaxPacket).toNat
      remoteWin := (Window.add ⟨0, false⟩ (UInt32.ofNat channelWindowSize).toNat).getD
        ⟨0, false⟩ }) Channel.accept = _
  rw [hsize, if_neg (by decide), hfull, Window.add_of_lt (by decide)]
  rfl

/-- One side waits for an answer that is under way. -/
def Net.start (id id' : UInt32) : Net where
  ends := fun
    | .opener => .ofChannel (openChannel id)
    | .acceptor => .ofChannel (granted id id')
  wire := fun
    | .opener => []
    | .acceptor => [(id, .confirm (id, id', UInt32.ofNat channelWindowSize,
        UInt32.ofNat channelMaxPacket, [], ()))]

/-- **The machine of a channel**, with the numbers its two sides give it. -/
def net (id id' : UInt32) : Machine Net NetLabel := ⟨Net.start id id', Net.step⟩

/-! ## One direction as a flow of credit -/

/-- The data on a wire. -/
def chunks (w : List (UInt32 × Pkt)) : List (Stream × Bytes) := w.filterMap (fun x => x.2.chunk)

/-- The credit on a wire. -/
def credits (w : List (UInt32 × Pkt)) : List ℕ := w.filterMap (fun x => x.2.credit)

theorem chunks_append (w : List (UInt32 × Pkt)) (id : UInt32) (ps : List Pkt) :
    chunks (w ++ ps.map (fun k => (id, k))) = chunks w ++ ps.filterMap Pkt.chunk := by
  rw [chunks, List.filterMap_append, List.filterMap_map]
  rfl

theorem credits_append (w : List (UInt32 × Pkt)) (id : UInt32) (ps : List Pkt) :
    credits (w ++ ps.map (fun k => (id, k))) = credits w ++ ps.filterMap Pkt.credit := by
  rw [credits, List.filterMap_append, List.filterMap_map]
  rfl

theorem chunks_cons_of_none {k : Pkt} (hk : k.chunk = none) (num : UInt32)
    (w : List (UInt32 × Pkt)) : chunks ((num, k) :: w) = chunks w :=
  List.filterMap_cons_none hk

theorem credits_cons_of_none {k : Pkt} (hk : k.credit = none) (num : UInt32)
    (w : List (UInt32 × Pkt)) : credits ((num, k) :: w) = credits w :=
  List.filterMap_cons_none hk

/-- A sender, a receiver, and what is between them, as a flow. -/
def flow (S : End.Sender) (wire : List (Stream × Bytes)) (credits : List ℕ) (lost : ℕ)
    (r : Receiver Stream UInt8) : State Stream UInt8 where
  win := S.win
  reserved := S.reserved
  sent := S.sent
  wire := wire
  credits := credits
  lost := lost
  rcv := r

/-- **A direction is a flow of credit**: its state is one that the machine of
such flows can reach, and credit is lost only once a side has closed. -/
def Flows (f : End) (w : List (UInt32 × Pkt)) (e : End) (w' : List (UInt32 × Pkt)) : Prop :=
  ∃ lost, (machine Stream UInt8 channelWindowSize).Reachable
      (flow f.sender (chunks w) (credits w') lost e.receiver)
    ∧ (0 < lost → f.ch.sentClose = true ∨ e.ch.sentClose = true)

variable {e e' f f' : End} {ps : List Pkt} {w w' : List (UInt32 × Pkt)}

theorem Flows.balanced (h : Flows f w e w') : ∃ lost,
    (flow f.sender (chunks w) (credits w') lost e.receiver).Balanced channelWindowSize
      ∧ (0 < lost → f.ch.sentClose = true ∨ e.ch.sentClose = true) := by
  obtain ⟨lost, hr, hlost⟩ := h
  exact ⟨lost, balanced_of_reachable hr, hlost⟩

/-- **The sender takes a step.** -/
theorem Flows.send {num : UInt32} (h : Flows f w e w') (hf : End.Effect f f' ps)
    (hclosed : f.ch.remoteWin.closed = true → f.ch.sentClose = true)
    (hsent : f.ch.sentClose = true → f'.ch.sentClose = true) :
    Flows f' (w ++ ps.map (fun k => (num, k))) e w' := by
  obtain ⟨lost, hr, hlost⟩ := h
  have hlost' : 0 < lost → f'.ch.sentClose = true ∨ e.ch.sentClose = true :=
    fun hl => (hlost hl).imp hsent id
  have hnil : chunks (w ++ ([] : List Pkt).map (fun k => (num, k))) = chunks w := by
    rw [List.map_nil, List.append_nil]
  cases hf with
  | idle hs hrr hd hc =>
    refine ⟨lost, ?_, hlost'⟩
    rw [chunks_append, hd, List.append_nil, hs]
    exact hr
  | reserve s n hn hs hrr =>
    refine ⟨lost, hr.step (l := .reserve s n) ?_, hlost'⟩
    rw [hnil, hs]
    exact if_pos hn
  | forfeit s n hn hs hrr hcl =>
    -- what is taken from the window is taken first, and then dropped with the rest
    have hr₁ : (machine Stream UInt8 channelWindowSize).Reachable (flow { f.sender with
        win := f.sender.win - n
        reserved := Function.update f.sender.reserved s (f.sender.reserved s + n) }
        (chunks w) (credits w') lost e.receiver) := hr.step (l := .reserve s n) (if_pos hn)
    refine ⟨lost + (f.sender.reserved s + n), hr₁.step (l := .forfeit s) ?_,
      fun _ => .inl (hsent (hcl.elim hclosed id))⟩
    rw [hnil, hs]
    show some (State.mk _ (Function.update (Function.update f.sender.reserved s _) s 0) _ _ _
      (lost + Function.update f.sender.reserved s (f.sender.reserved s + n) s) _) = _
    rw [Function.update_idem, Function.update_self]
    rfl
  | send s d hd hs hrr =>
    refine ⟨lost, hr.step (l := .send s d) ?_, hlost'⟩
    rw [chunks_append, hs]
    exact if_pos hd
  | store hs _ | read _ _ hs _ | grant _ hs _ | announce _ hs _ | withhold _ hs _ =>
    refine ⟨lost, ?_, hlost'⟩
    rw [chunks_append, hs]
    show Machine.Reachable _ (flow f.sender (chunks w ++ []) _ lost _)
    rw [List.append_nil]
    exact hr

/-- **The receiver takes a step.** -/
theorem Flows.work {num : UInt32} (h : Flows f w e w') (he : End.Effect e e' ps)
    (hsent : e.ch.sentClose = true → e'.ch.sentClose = true) :
    Flows f w e' (w' ++ ps.map (fun k => (num, k))) := by
  obtain ⟨lost, hr, hlost⟩ := h
  have hlost' : 0 < lost → f.ch.sentClose = true ∨ e'.ch.sentClose = true :=
    fun hl => (hlost hl).imp id hsent
  have hnil : credits (w' ++ ([] : List Pkt).map (fun k => (num, k))) = credits w' := by
    rw [List.map_nil, List.append_nil]
  cases he with
  | idle hs hrr hd hc =>
    refine ⟨lost, ?_, hlost'⟩
    rw [credits_append, hc, List.append_nil, hrr]
    exact hr
  | reserve _ _ _ _ hrr | forfeit _ _ _ _ hrr | send _ _ _ _ hrr =>
    refine ⟨lost, ?_, hlost'⟩
    rw [credits_append, hrr]
    show Machine.Reachable _ (flow _ _ (credits w' ++ []) lost _)
    rw [List.append_nil]
    exact hr
  | store _ hrr =>
    refine ⟨lost, hr.step (l := .store) ?_, hlost'⟩
    rw [hnil]
    exact congrArg (Option.map _) hrr
  | read s n _ hrr =>
    refine ⟨lost, hr.step (l := .read s n) ?_, hlost'⟩
    rw [hnil]
    exact congrArg (Option.map _) hrr
  | grant s _ hrr =>
    refine ⟨lost, hr.step (l := .grant s) ?_, hlost'⟩
    rw [hnil, hrr]
    rfl
  | announce s _ hrr =>
    refine ⟨lost, hr.step (l := .announce s) ?_, hlost'⟩
    rw [credits_append, hrr]
    rfl
  | withhold s _ hrr hcl =>
    refine ⟨lost + e.receiver.granted s, hr.step (l := .withhold s) ?_,
      fun _ => .inr (hsent hcl)⟩
    rw [hnil, hrr]
    rfl

/-- **The receiver gets a packet.** -/
theorem Flows.delivered {num : UInt32} {k : Pkt} (h : Flows f ((num, k) :: w) e w')
    (htodo : e.todo = []) (hd : End.Delivered f e k e') : Flows f w e' w' := by
  obtain ⟨lost, hr, hlost⟩ := h
  have hlost' : 0 < lost → f.ch.sentClose = true ∨ e'.ch.sentClose = true := by
    rw [hd.keeps.2.2.1]
    exact hlost
  -- a packet without data leaves the account of the receiver alone
  have hsame : e'.receiver = e.receiver → k.chunk = none → Flows f w e' w' := by
    intro hrr hk
    refine ⟨lost, ?_, hlost'⟩
    rw [hrr]
    rwa [chunks_cons_of_none hk] at hr
  have hstored : ∀ (ch : Channel) (todo : List MuxAct), ch.myWindow = e.ch.myWindow →
      ch.buffer = e.ch.buffer → todo.filterMap End.chunkOf = [] →
      ({ e with ch, todo } : End).receiver = e.receiver := by
    intro ch todo hwin hbuf ht
    refine Receiver.ext hwin ?_ ?_ rfl rfl rfl rfl
    · show todo.filterMap End.chunkOf = e.todo.filterMap End.chunkOf
      rw [ht, htodo]
      rfl
    · show (fun s => (ch.buffer s).contents) = _
      rw [hbuf]
      rfl
  cases hd with
  | data s d =>
    refine ⟨lost, hr.step (l := .arrive) ?_, hlost⟩
    have hfits : d.length ≤ e.receiver.window := (balanced_of_reachable hr).accept rfl
    show (if d.length = 0 then some (flow f.sender (chunks w) (credits w') lost e.receiver)
      else (e.receiver.accept (some s) d).map
        (flow f.sender (chunks w) (credits w') lost)) = _
    by_cases hd₀ : d = []
    · subst hd₀
      refine congrArg (fun r => some (flow f.sender (chunks w) (credits w') lost r)) ?_
      exact (hstored _ [] rfl rfl rfl).symm
    · rw [if_neg (fun h₀ => hd₀ (List.length_eq_zero_iff.mp h₀)), Receiver.accept, if_pos hfits]
      refine congrArg (fun r => some (flow f.sender (chunks w) (credits w') lost r)) ?_
      refine Receiver.ext rfl ?_ rfl rfl rfl rfl rfl
      show e.todo.filterMap End.chunkOf ++ [(some s, d)]
        = (if d = [] then [] else [MuxAct.store s.extendedCode d]).filterMap End.chunkOf
      rw [htodo, if_neg hd₀]
      cases s <;> rfl
  | windowAdjust n =>
    exact hsame (hstored _ _ rfl (funext fun s => by cases s <;> rfl) rfl) rfl
  | confirm m => exact hsame (hstored _ _ rfl (funext fun s => by cases s <;> rfl) rfl) rfl
  | eof | close | request r | reply ok m => exact hsame (hstored _ _ rfl rfl rfl) rfl

/-- **The sender gets a packet.** -/
theorem Flows.heard {num : UInt32} {k : Pkt} (h : Flows e w f ((num, k) :: w'))
    (hd : End.Delivered f e k e') (hwin : End.isConfirm k = true → e.ch.remoteWin.win = 0) :
    Flows e' w f w' := by
  obtain ⟨lost, hr, hlost⟩ := h
  have hlost' : 0 < lost → e'.ch.sentClose = true ∨ f.ch.sentClose = true := by
    rw [hd.keeps.2.2.1]
    exact hlost
  have hsame : e'.sender = e.sender → k.credit = none → Flows e' w f w' := by
    intro hs hk
    refine ⟨lost, ?_, hlost'⟩
    rw [hs]
    rwa [credits_cons_of_none hk] at hr
  cases hd with
  | windowAdjust n => exact ⟨lost, hr.step (l := .credit) rfl, hlost⟩
  | confirm m =>
    have hfull : e.ch.remoteWin.win + (UInt32.ofNat channelWindowSize).toNat
        = channelWindowSize := by
      rw [hwin rfl, Nat.zero_add]
      exact UInt32.toNat_ofNat_of_lt' (by decide)
    refine ⟨lost, hr.step (l := .credit) ?_, hlost⟩
    show some (flow { e.sender with win := e.ch.remoteWin.win
      + (UInt32.ofNat channelWindowSize).toNat } (chunks w) (credits w') lost f.receiver) = _
    rw [hfull]
    rfl
  | data s d | eof | close | request r | reply ok m => exact hsame rfl rfl

/-! ## Both directions -/

theorem End.Sane.sentClose_of_window (h : e.Sane) (hc : e.ch.remoteWin.closed = true) :
    e.ch.sentClose = true := by
  rcases h.phase with hrun | ⟨k, hk⟩
  · rw [hrun.window] at hc
    cases hc
  · have hk' := hk.window
    rw [hc] at hk'
    exact hk.sentClose (by have := of_decide_eq_true hk'.symm; omega)

/-- **What holds of the two ends and of both directions.** -/
structure Net.Inv (n : Net) : Prop where
  sane : ∀ p, (n.ends p).Sane
  link : ∀ p, End.Link (n.ends p) (n.wire p) (n.ends p.peer)
  flows : ∀ p, Flows (n.ends p) (n.wire p) (n.ends p.peer) (n.wire p.peer)

variable {n n' : Net}

/-- The window of a side of a channel does not overflow. -/
theorem Net.Inv.window_lt (h : n.Inv) (p : Side) (s : Stream) :
    (n.ends p).receiver.window + (n.ends p).receiver.owed s < 2 ^ 32 := by
  have hflow := h.flows p.peer
  rw [Side.peer_peer] at hflow
  obtain ⟨lost, hb, -⟩ := hflow.balanced
  exact lt_of_le_of_lt (hb.holds.window_add_owed_le s) (by decide)

/-- **One side takes a step.** -/
theorem Net.Inv.act (h : n.Inv) {p : Side} {a : End.Act} (hs : n.step (.act p a) = some n') :
    n'.Inv := by
  obtain ⟨⟨e', ps⟩, ha, rfl⟩ := Option.map_eq_some_iff.mp hs
  have hstep := End.step_of_act ha
  have hsane := h.sane p
  obtain ⟨hsane', -, hsent⟩ := hsane.step hstep
  have heff := End.effect_of_step hsane.wf hstep (h.window_lt p)
  have hmono : (n.ends p).ch.sentClose = true → e'.ch.sentClose = true := by
    intro hc
    rw [hsent, hc, Bool.true_or]
  have hlink := h.link p.peer
  have hflow := h.flows p.peer
  rw [Side.peer_peer] at hlink hflow
  refine ⟨Side.forall_of p ?_ ?_, Side.forall_of p ?_ ?_, Side.forall_of p ?_ ?_⟩
  · rw [put_ends_self]
    exact hsane'
  · rw [put_ends_peer]
    exact h.sane p.peer
  · rw [put_ends_self, put_wire_self, put_ends_peer]
    exact (h.link p).send hsane hstep
  · rw [put_ends_peer, put_wire_peer, Side.peer_peer, put_ends_self]
    exact hlink.work hsane hstep
  · rw [put_ends_self, put_wire_self, put_ends_peer, put_wire_peer]
    exact (h.flows p).send heff hsane.sentClose_of_window hmono
  · rw [put_ends_peer, put_wire_peer, Side.peer_peer, put_ends_self, put_wire_self]
    exact hflow.work heff hmono

/-- **A packet that arrives is not refused.** -/
theorem Net.Inv.deliver_eq (h : n.Inv) {p : Side} {num : UInt32} {k : Pkt}
    {w : List (UInt32 × Pkt)} (hw : n.wire p = (num, k) :: w)
    (htodo : (n.ends p.peer).todo = []) :
    ∃ e', (n.ends p.peer).deliver (k.bytes num) = some e'
      ∧ End.Delivered (n.ends p) (n.ends p.peer) k e' := by
  have hlink := h.link p
  have hflow := h.flows p
  have hback := h.flows p.peer
  rw [Side.peer_peer] at hback
  rw [hw] at hlink hflow hback
  refine hlink.deliver (h.sane p.peer) htodo ?_ ?_
  · rintro s d rfl
    obtain ⟨lost, hb, -⟩ := hflow.balanced
    exact hb.accept rfl
  · rintro m rfl
    obtain ⟨lost, hb, -⟩ := hback.balanced
    exact lt_of_le_of_lt (hb.win_add_le rfl) (by decide)

/-- **A packet arrives.** -/
theorem Net.Inv.deliver (h : n.Inv) {p : Side} (hs : n.step (.deliver p) = some n') : n'.Inv := by
  rw [Net.step] at hs
  split at hs
  · cases hs
  · rename_i num k w hw
    obtain ⟨e', hdel, rfl⟩ := Option.map_eq_some_iff.mp hs
    have htodo := (End.deliver_cases hdel).2.1
    obtain ⟨e₁, hdel₁, hd⟩ := h.deliver_eq hw htodo
    obtain rfl : e₁ = e' := Option.some.inj (hdel₁.symm.trans hdel)
    have hsane := h.sane p.peer
    have hlink := h.link p
    have hflow := h.flows p
    have hlink' := h.link p.peer
    have hflow' := h.flows p.peer
    rw [Side.peer_peer] at hlink' hflow'
    rw [hw] at hlink hflow hflow'
    refine ⟨Side.forall_of p ?_ ?_, Side.forall_of p ?_ ?_, Side.forall_of p ?_ ?_⟩
    · rw [take_ends_self]
      exact h.sane p
    · rw [take_ends_peer]
      exact hsane.delivered hlink hd
    · rw [take_ends_self, take_wire_self, take_ends_peer]
      exact hlink.delivered hsane hd
    · rw [take_ends_peer, take_wire_peer, Side.peer_peer, take_ends_self]
      exact hlink'.heard hd hlink.decided_eq
    · rw [take_ends_self, take_wire_self, take_ends_peer, take_wire_peer]
      exact hflow.delivered htodo hd
    · rw [take_ends_peer, take_wire_peer, Side.peer_peer, take_ends_self, take_wire_self]
      refine hflow'.heard hd fun hc => ?_
      have hdec := hlink.decided_eq
      rw [hc] at hdec
      rw [(hsane.pristine hdec).window]

theorem Net.Inv.step (h : n.Inv) {l : NetLabel} (hs : n.step l = some n') : n'.Inv := by
  cases l with
  | act p a => exact h.act hs
  | deliver p => exact h.deliver hs

/-- **What a step does to one side**: nothing, or it is a step of that side, or
a packet arrives there. -/
theorem Net.Inv.end_cases (h : n.Inv) {l : NetLabel} (hs : n.step l = some n') (p : Side) :
    n'.ends p = n.ends p
      ∨ (∃ a ps, l = .act p a ∧ End.Step (n.ends p) a (n'.ends p) ps)
      ∨ (∃ k, l = .deliver p.peer ∧ (n.ends p).Running
        ∧ End.Delivered (n.ends p.peer) (n.ends p) k (n'.ends p)) := by
  cases l with
  | act q a =>
    obtain ⟨⟨e', ps⟩, ha, rfl⟩ := Option.map_eq_some_iff.mp hs
    revert p
    refine Side.forall_of q ?_ ?_
    · rw [put_ends_self]
      exact .inr (.inl ⟨a, ps, rfl, End.step_of_act ha⟩)
    · rw [put_ends_peer]
      exact .inl rfl
  | deliver q =>
    rw [Net.step] at hs
    split at hs
    · cases hs
    · rename_i num k w hw
      obtain ⟨e', hdel, rfl⟩ := Option.map_eq_some_iff.mp hs
      obtain ⟨e₁, hdel₁, hd⟩ := h.deliver_eq hw (End.deliver_cases hdel).2.1
      obtain rfl : e₁ = e' := Option.some.inj (hdel₁.symm.trans hdel)
      have hlink := h.link q
      rw [hw] at hlink
      revert p
      refine Side.forall_of q ?_ ?_
      · rw [take_ends_self]
        exact .inl rfl
      · rw [take_ends_peer, Side.peer_peer]
        exact .inr (.inr ⟨k, rfl, hlink.running (h.sane q.peer), hd⟩)

/-- An end to which nothing has happened. -/
theorem End.sane_ofChannel {c : Channel} (hin : c.maxIncomingPayload = channelMaxPacket)
    (hwin : c.remoteWin.closed = false)
    (hp : c.decided = false → (End.ofChannel c).Pristine) : (End.ofChannel c).Sane :=
  ⟨fun _ => trivial, rfl, hin, .inl ⟨rfl, hwin, nofun⟩, hp⟩

theorem End.not_gotClose_ofChannel {c : Channel} (hwin : c.remoteWin.closed = false) :
    ¬ (End.ofChannel c).GotClose :=
  Running.not_gotClose ⟨rfl, hwin, nofun⟩

/-- The buffers of a new channel are empty. -/
theorem End.receiver_ofChannel {c : Channel} (hwin : c.myWindow = channelWindowSize)
    (hp : c.pending = newBuffer) (hx : c.extPending = newBuffer) :
    (End.ofChannel c).receiver = .start channelWindowSize := by
  refine Receiver.ext hwin rfl ?_ rfl rfl rfl rfl
  funext s
  cases s with
  | stdout => exact congrArg Buffer.contents hp
  | stderr => exact congrArg Buffer.contents hx

theorem Net.inv_start (id id' : UInt32) : (Net.start id id').Inv := by
  refine ⟨Side.forall_of .opener ?_ ?_, Side.forall_of .opener ?_ ?_,
    Side.forall_of .opener ?_ ?_⟩
  · exact End.sane_ofChannel rfl rfl fun _ =>
      ⟨fun _ => rfl, fun _ => rfl, rfl, rfl, rfl, rfl, rfl, rfl, rfl, rfl⟩
  · exact End.sane_ofChannel rfl rfl nofun
  · exact ⟨nofun, nofun, nofun, fun _ => nofun, nofun, .nil,
      ⟨nofun, fun hc => hc.elim nofun fun hg => absurd hg (End.not_gotClose_ofChannel rfl)⟩,
      fun hg => absurd hg (End.not_gotClose_ofChannel rfl)⟩
  · refine ⟨?_, ?_, fun _ => ⟨rfl, rfl⟩, nofun, fun _ => ⟨[], rfl, nofun⟩,
      List.pairwise_singleton _ _, ⟨nofun, ?_⟩,
      fun hg => absurd hg (End.not_gotClose_ofChannel rfl)⟩
    · intro x hx
      rw [List.mem_singleton.mp hx]
      rfl
    · intro x hx
      rw [List.mem_singleton.mp hx]
      trivial
    · rintro (⟨x, hx, hc⟩ | hg)
      · rw [List.mem_singleton.mp hx] at hc
        cases hc
      · exact absurd hg (End.not_gotClose_ofChannel rfl)
  · -- the first credit of the opener is in the answer
    refine ⟨0, ?_, nofun⟩
    have hstart : flow (End.ofChannel (openChannel id)).sender [] [channelWindowSize] 0
        (End.ofChannel (granted id id')).receiver = State.start channelWindowSize := by
      rw [End.receiver_ofChannel rfl rfl rfl]
      rfl
    have hcredits : credits ((Net.start id id').wire .acceptor) = [channelWindowSize] := by
      show [(UInt32.ofNat channelWindowSize).toNat] = _
      rw [UInt32.toNat_ofNat_of_lt' (by decide)]
    show Machine.Reachable _ (flow _ [] (credits ((Net.start id id').wire .acceptor)) 0 _)
    rw [hcredits]
    exact hstart ▸ Machine.Reachable.start
  · -- the first credit of the acceptor was in the request
    refine ⟨0, Machine.Reachable.step (l := .credit) Machine.Reachable.start ?_, nofun⟩
    show some _ = some (flow _ [] [] 0 (End.ofChannel (openChannel id)).receiver)
    rw [End.receiver_ofChannel rfl rfl rfl]
    refine congrArg some ?_
    show State.mk (0 + channelWindowSize) _ _ _ _ _ _ = _
    rw [Nat.zero_add]
    rfl

/-- **Every state of every run is in order.** -/
theorem inv_of_reachable {id id' : UInt32} (h : (net id id').Reachable n) : n.Inv :=
  Machine.reachable_rec (P := Net.Inv) (Net.inv_start id id') (fun _ _ _ h hs => h.step hs) h

/-- **No packet of a channel is ever refused.** However the goroutines of
the two sides take turns, and whatever they write, read, request and close,
neither side's loop that reads packets ends with an error: no packet is for a
channel that is not there, none is larger than was agreed, none overruns the
window, and no adjustment overflows it. -/
theorem net_failed (id id' : UInt32) {n : Net} (h : (net id id').Reachable n) (p : Side) :
    (n.ends p).failed = none :=
  ((inv_of_reachable h).sane p).failed

/-- One side writes three bytes, and they arrive. -/
def writeSchedule : List NetLabel :=
  [.deliver .acceptor, .act .opener .handle, .act .opener (.write .stdout [1, 2, 3]),
    .act .opener (.reserve .stdout), .act .opener (.send .stdout), .deliver .opener,
    .act .acceptor .handle]

theorem net_failed_write : ∃ n, (net 0 7).Reachable n
    ∧ (n.ends .acceptor).ch.pending.contents = [1, 2, 3] ∧ (n.ends .acceptor).failed = none := by
  have hrun : (net 0 7).Reachable _ := ⟨writeSchedule, rfl⟩
  exact ⟨_, hrun, rfl, net_failed 0 7 hrun .acceptor⟩

/-- **What was sent is what was read, and what is still to be read**, stream by
stream: what is in the buffer, what is in the hands of the goroutine that
handles packets, and what is on the wire, in this order. -/
theorem net_delivers (id id' : UInt32) {n : Net} (h : (net id id').Reachable n) (p : Side)
    (s : Stream) :
    ((n.ends p).lane s).sent = ((n.ends p.peer).lane s).got
      ++ (((n.ends p.peer).ch.buffer s).contents
        ++ (dataOf (n.ends p.peer).receiver.stored (some s) ++ dataOf (chunks (n.wire p)) s)) := by
  obtain ⟨lost, hb, -⟩ := ((inv_of_reachable h).flows p).balanced
  exact hb.sent s

theorem net_delivers_write : ∃ n, (net 0 7).Reachable n
    ∧ ((n.ends .opener).lane .stdout).sent = [1, 2, 3]
    ∧ ((n.ends .opener).lane .stdout).sent = ((n.ends .acceptor).lane .stdout).got
      ++ (((n.ends .acceptor).ch.buffer .stdout).contents
        ++ (dataOf (n.ends .acceptor).receiver.stored (some .stdout)
          ++ dataOf (chunks (n.wire .opener)) .stdout)) := by
  have hrun : (net 0 7).Reachable _ := ⟨writeSchedule, rfl⟩
  exact ⟨_, hrun, rfl, net_delivers 0 7 hrun .opener .stdout⟩

end Ssh
