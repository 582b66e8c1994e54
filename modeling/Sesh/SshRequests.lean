import Sesh.SshFlow

/-!
# The requests of a channel

Besides data a channel carries requests: to run a command, to send it a
signal, and, the other way, to say how it ended. They come between packets
of data, are put in a queue by the goroutine that handles packets, and are
taken from it by whoever uses the channel, until the queue is closed
(`ssh/channel.go`, `handlePacket` and `close`).

The machine `Ssh.logged` is `Ssh.net` with two records for each side: the
requests it has sent, and those it has taken from its queue. In every state
the one is the other, followed by what is on the way; and who finds its queue
closed and empty has taken everything that was ever sent (`net_requests`).
-/

namespace Ssh

open Channel

/-- The request in a packet. -/
def Channel.Pkt.asks : Pkt → Option ChannelRequest
  | .request r => some r
  | _ => none

/-- The request an action hands on. -/
def Channel.MuxAct.asks : MuxAct → Option ChannelRequest
  | .request r => some r
  | _ => none

/-! ## One end -/

namespace End

variable {e e' f : End} {ps : List Pkt} {a : Act}

/-- **The requests that an end has received and nobody has taken**: those in
the queue, and the one in hand. -/
def requests (e : End) : List ChannelRequest :=
  e.ch.incomingRequests.buf ++ e.todo.filterMap MuxAct.asks

/-- The requests that a step takes from the queue. -/
def takes (e : End) : Act → List ChannelRequest
  | .takeRequest => (e.ch.incomingRequests.recv.map Prod.fst).toList
  | _ => []

theorem requests_of_handled {b : MuxAct} (h : Handled e b e' ps) :
    e'.requests = e.ch.incomingRequests.buf ++ (b :: e.todo).filterMap MuxAct.asks := by
  cases h with
  | store s data => cases s <;> rfl
  | eof s => cases s <;> rfl
  | request r q hq =>
    show q.buf ++ _ = _
    rw [Chan.buf_of_send hq, List.append_assoc]
    rfl
  | _ => rfl

/-- **A step takes from the front of the queue, or leaves it alone.** -/
theorem requests_of_step (h : Step e a e' ps) : e.requests = e.takes a ++ e'.requests := by
  cases h with
  | read s k d b => cases s <;> rfl
  | readEOF s k b => cases s <;> rfl
  | takeRequest r q hq =>
    show e.ch.incomingRequests.buf ++ _ = (e.ch.incomingRequests.recv.map Prod.fst).toList ++ _
    rw [hq, Chan.buf_of_recv hq]
    rfl
  | handle b todo _ _ ht hh =>
    show e.ch.incomingRequests.buf ++ e.todo.filterMap MuxAct.asks = e'.requests
    rw [requests_of_handled hh, ht]
  | _ => rfl

/-- A packet that arrives brings its request. -/
theorem requests_of_delivered {k : Pkt} (hd : Delivered f e k e') (htodo : e.todo = []) :
    e'.requests = e.requests ++ k.asks.toList := by
  have hno : e.requests = e.ch.incomingRequests.buf := by
    rw [requests, htodo]
    exact List.append_nil _
  rw [hno]
  cases hd with
  | data s d =>
    show _ ++ (if d = [] then [] else [MuxAct.store s.extendedCode d]).filterMap MuxAct.asks = _
    split <;> rfl
  | _ => rfl

/-- **The queues are closed by nothing but a close.** -/
theorem closedQueues_of_step (h : Step e a e' ps) (hq : e'.ch.closedQueues = true) :
    e.ch.closedQueues = true ∨ .closeQueues ∈ e.todo := by
  cases h with
  | read s k d b => cases s <;> exact .inl hq
  | readEOF s k b => cases s <;> exact .inl hq
  | handle b todo _ _ ht hh =>
    cases hh with
    | store s data => cases s <;> exact .inl hq
    | eof s => cases s <;> exact .inl hq
    | closeQueues => exact .inr (ht ▸ List.mem_cons_self)
    | _ => exact .inl hq
  | _ => exact .inl hq

theorem closedQueues_mono (h : Step e a e' ps) (hq : e.ch.closedQueues = true) :
    e'.ch.closedQueues = true := by
  cases h with
  | read s k d b => cases s <;> exact hq
  | readEOF s k b => cases s <;> exact hq
  | handle b todo _ _ ht hh =>
    cases hh with
    | store s data => cases s <;> exact hq
    | eof s => cases s <;> exact hq
    | closeQueues => rfl
    | _ => exact hq
  | _ => exact hq

/-- Requests are sent by `SendRequest` and by nothing else. -/
theorem asks_of_step (h : Step e a e' ps) (ha : ∀ r, a ≠ .sendRequest r) :
    ps.filterMap Pkt.asks = [] := by
  cases h with
  | sendEOF n hn ps hps | ackRequest ok hd ps hps =>
    rw [hps]
    split <;> rfl
  | tooLarge r | sendRequest r => exact absurd rfl (ha r)
  | handle b todo _ _ ht hh => cases hh <;> rfl
  | _ => rfl

theorem asks_of_sendRequest {r : ChannelRequest} (h : Step e (.sendRequest r) e' ps) :
    ps.filterMap Pkt.asks = []
      ∨ (ps.filterMap Pkt.asks = [r] ∧ ((Pkt.request r).bytes e.ch.remoteId).length ≤ maxPacket) := by
  cases h with
  | tooLarge => exact .inl rfl
  | sendRequest _ hd hr ps hps =>
    rw [hps]
    split
    · exact .inl rfl
    · exact .inr ⟨rfl, hr⟩

theorem Sane.gotClose_of_closeQueues (h : e.Sane) (hmem : .closeQueues ∈ e.todo) :
    e.GotClose := by
  rcases h.phase with hrun | hg
  · cases hrun.calm _ hmem
  · exact hg

/-- An end that has received a close gets no more requests. -/
theorem GotClose.requests_eq (h : e.GotClose) : e.requests = e.ch.incomingRequests.buf := by
  obtain ⟨k, hk⟩ := h
  have hnone : (closeTodo e.ch.localId).filterMap MuxAct.asks = [] := rfl
  have hdrop : e.todo.filterMap MuxAct.asks = [] := by
    rw [hk.todo]
    refine List.filterMap_eq_nil_iff.mpr fun b hb => ?_
    exact List.filterMap_eq_nil_iff.mp hnone b (List.mem_of_mem_drop hb)
  rw [requests, hdrop]
  exact List.append_nil _

end End

/-! ## Both ends, with a record of the requests -/

/-- **Two ends, and what each has asked and taken** so far. -/
structure Logged where
  net : Net
  asked : Side → List ChannelRequest
  taken : Side → List ChannelRequest

/-- A step of the two ends is recorded. -/
def Logged.step (x : Logged) : NetLabel → Option Logged
  | .act p a =>
    ((x.net.ends p).act a).map (fun r =>
      { net := x.net.put p r.1 r.2
        asked := Function.update x.asked p (x.asked p ++ r.2.filterMap Pkt.asks)
        taken := Function.update x.taken p (x.taken p ++ (x.net.ends p).takes a) })
  | .deliver p => (x.net.step (.deliver p)).map (fun n => { x with net := n })

/-- **The machine of two ends that keep a record.** -/
def logged (id id' : UInt32) : Machine Logged NetLabel :=
  ⟨⟨Net.start id id', fun _ => [], fun _ => []⟩, Logged.step⟩

variable {x x' : Logged} {l : NetLabel}

/-- The record changes nothing. -/
theorem Logged.net_step (h : x.step l = some x') : x.net.step l = some x'.net := by
  cases l with
  | act p a =>
    obtain ⟨r, hr, rfl⟩ := Option.map_eq_some_iff.mp h
    exact Option.map_eq_some_iff.mpr ⟨r, hr, rfl⟩
  | deliver p =>
    obtain ⟨n, hn, rfl⟩ := Option.map_eq_some_iff.mp h
    exact hn

/-- What a side takes is added to its record. -/
theorem Logged.taken_of_act {p : Side} {a : End.Act} (h : x.step (.act p a) = some x') :
    x'.taken p = x.taken p ++ (x.net.ends p).takes a := by
  obtain ⟨r, -, rfl⟩ := Option.map_eq_some_iff.mp h
  exact Function.update_self ..

/-- What a side sends is added to its record. -/
theorem Logged.asked_of_act {p : Side} {a : End.Act} (h : x.step (.act p a) = some x') :
    ∃ ps, End.Step (x.net.ends p) a (x'.net.ends p) ps
      ∧ x'.asked p = x.asked p ++ ps.filterMap Pkt.asks := by
  obtain ⟨⟨e', ps⟩, ha, rfl⟩ := Option.map_eq_some_iff.mp h
  refine ⟨ps, ?_, Function.update_self ..⟩
  show End.Step _ _ ((x.net.put p e' ps).ends p) _
  rw [Net.put_ends_self]
  exact End.step_of_act ha

/-- The record of a side changes with its own steps only. -/
theorem Logged.record_of_ne {p : Side} (h : x.step l = some x') (hl : ∀ a, l ≠ .act p a) :
    x'.taken p = x.taken p ∧ x'.asked p = x.asked p := by
  cases l with
  | act q a =>
    obtain ⟨r, -, rfl⟩ := Option.map_eq_some_iff.mp h
    have hne : p ≠ q := by
      rintro rfl
      exact hl a rfl
    exact ⟨Function.update_of_ne hne .., Function.update_of_ne hne ..⟩
  | deliver q =>
    obtain ⟨n, -, rfl⟩ := Option.map_eq_some_iff.mp h
    exact ⟨rfl, rfl⟩

/-- **What holds of the requests** of both directions. -/
structure Logged.Inv (x : Logged) : Prop where
  net : x.net.Inv
  requests : ∀ p, x.asked p = x.taken p.peer
    ++ ((x.net.ends p.peer).requests ++ (x.net.wire p).filterMap (fun y => y.2.asks))
  queues : ∀ p, (x.net.ends p).ch.closedQueues = true → (x.net.ends p).GotClose

theorem filterMap_asks_append (w : List (UInt32 × Pkt)) (num : UInt32) (ps : List Pkt) :
    (w ++ ps.map (fun k => (num, k))).filterMap (fun y => y.2.asks)
      = w.filterMap (fun y => y.2.asks) ++ ps.filterMap Pkt.asks := by
  rw [List.filterMap_append, List.filterMap_map]
  rfl

/-- **One side takes a step.** -/
theorem Logged.Inv.act (h : x.Inv) {p : Side} {a : End.Act}
    (hs : x.step (.act p a) = some x') : x'.Inv := by
  have hnet := h.net.step (Logged.net_step hs)
  obtain ⟨⟨e', ps⟩, ha, rfl⟩ := Option.map_eq_some_iff.mp hs
  have hstep := End.step_of_act ha
  have hsane := h.net.sane p
  refine ⟨hnet, Side.forall_of p ?_ ?_, Side.forall_of p ?_ ?_⟩
  · -- what it sends goes to the end of the wire
    show Function.update x.asked p _ p = Function.update x.taken p _ p.peer ++ _
    rw [Function.update_self, Function.update_of_ne p.peer_ne, Net.put_ends_peer,
      Net.put_wire_self, filterMap_asks_append, h.requests p, List.append_assoc,
      List.append_assoc]
  · -- what it takes comes from the front of its queue
    have hreq := h.requests p.peer
    rw [Side.peer_peer, End.requests_of_step hstep] at hreq
    show Function.update x.asked p _ p.peer = Function.update x.taken p _ p.peer.peer ++ _
    rw [Side.peer_peer, Function.update_self, Function.update_of_ne p.peer_ne,
      Net.put_ends_self, Net.put_wire_peer, hreq]
    simp only [List.append_assoc]
  · intro hq
    rw [Net.put_ends_self] at hq ⊢
    refine (hsane.step hstep).2.1.mpr ?_
    rcases End.closedQueues_of_step hstep hq with hq | hmem
    · exact h.queues p hq
    · exact hsane.gotClose_of_closeQueues hmem
  · intro hq
    rw [Net.put_ends_peer] at hq ⊢
    exact h.queues p.peer hq

/-- **A packet arrives.** -/
theorem Logged.Inv.deliver (h : x.Inv) {p : Side} (hs : x.step (.deliver p) = some x') :
    x'.Inv := by
  have hnet := h.net.step (Logged.net_step hs)
  obtain ⟨n, hn, rfl⟩ := Option.map_eq_some_iff.mp hs
  rw [Net.step] at hn
  split at hn
  · cases hn
  · rename_i num k w hw
    obtain ⟨e', hdel, rfl⟩ := Option.map_eq_some_iff.mp hn
    have htodo := (End.deliver_cases hdel).2.1
    obtain ⟨e₁, hdel₁, hd⟩ := h.net.deliver_eq hw htodo
    obtain rfl : e₁ = e' := Option.some.inj (hdel₁.symm.trans hdel)
    have hlink := h.net.link p
    rw [hw] at hlink
    -- who gets a packet has its queues open
    have hopen : ¬ (x.net.ends p.peer).ch.closedQueues = true := fun hq =>
      (hlink.running (h.net.sane p.peer)).not_gotClose (h.queues p.peer hq)
    refine ⟨hnet, Side.forall_of p ?_ ?_, Side.forall_of p ?_ ?_⟩
    · have hreq := h.requests p
      rw [hw] at hreq
      rw [Net.take_ends_peer, Net.take_wire_self, End.requests_of_delivered hd htodo, hreq,
        List.append_assoc]
      cases k <;> rfl
    · have hreq := h.requests p.peer
      rw [Side.peer_peer] at hreq ⊢
      rw [Net.take_ends_self, Net.take_wire_peer, hreq]
    · intro hq
      rw [Net.take_ends_self] at hq ⊢
      exact h.queues p hq
    · intro hq
      rw [Net.take_ends_peer] at hq
      refine absurd ?_ hopen
      cases hd <;> exact hq

theorem Logged.Inv.step (h : x.Inv) (hs : x.step l = some x') : x'.Inv := by
  cases l with
  | act p a => exact h.act hs
  | deliver p => exact h.deliver hs

/-- **A queue that is closed and empty stays so.** -/
theorem Logged.Inv.ended_of_step (h : x.Inv) (hs : x.step l = some x') {p : Side}
    (hq : (x.net.ends p).ch.closedQueues = true)
    (hb : (x.net.ends p).ch.incomingRequests.buf = []) :
    (x'.net.ends p).ch.closedQueues = true ∧ (x'.net.ends p).ch.incomingRequests.buf = [] := by
  have hg := h.queues p hq
  rcases h.net.end_cases (Logged.net_step hs) p with heq | ⟨a, ps, -, hstep⟩ | ⟨k, -, hrun, -⟩
  · rw [heq]
    exact ⟨hq, hb⟩
  · have hreq := End.requests_of_step hstep
    rw [hg.requests_eq, hb] at hreq
    exact ⟨End.closedQueues_mono hstep hq,
      (List.append_eq_nil_iff.mp (List.append_eq_nil_iff.mp hreq.symm).2).1⟩
  · exact absurd hg hrun.not_gotClose

theorem Logged.inv_start (id id' : UInt32) : (logged id id').start.Inv :=
  ⟨Net.inv_start id id', fun p => by cases p <;> rfl, fun p => by cases p <;> nofun⟩

theorem logged_inv {id id' : UInt32} (h : (logged id id').Reachable x) : x.Inv :=
  Machine.reachable_rec (P := Logged.Inv) (Logged.inv_start id id')
    (fun _ _ _ h hs => h.step hs) h

/-- A loop over the requests of a channel ends when all have been taken. -/
theorem Logged.Inv.taken_eq_asked (h : x.Inv) {p : Side}
    (hq : (x.net.ends p.peer).ch.closedQueues = true)
    (hb : (x.net.ends p.peer).ch.incomingRequests.buf = []) : x.taken p.peer = x.asked p := by
  have hg := h.queues p.peer hq
  rw [h.requests p, hg.requests_eq, hb, (h.net.link p).quiet hg]
  exact (List.append_nil _).symm

/-- **No request is lost, repeated or reordered.** In every state of a
channel, what one side has asked is what the other one has taken, then what
waits there, then what is on the wire. And a side that finds its queue closed
and empty has taken all that the other one has asked: a loop over the
requests of a channel does not end before. -/
theorem net_requests (id id' : UInt32) {x : Logged} (h : (logged id id').Reachable x) (p : Side) :
    x.asked p = x.taken p.peer
        ++ ((x.net.ends p.peer).requests ++ (x.net.wire p).filterMap (fun y => y.2.asks))
      ∧ ((x.net.ends p.peer).ch.closedQueues = true →
          (x.net.ends p.peer).ch.incomingRequests.buf = [] → x.taken p.peer = x.asked p) := by
  have hinv := logged_inv h
  exact ⟨hinv.requests p, hinv.taken_eq_asked⟩

theorem net_requests_one : ∃ x, (logged 0 7).Reachable x
    ∧ x.asked .acceptor = [⟨[1], false, []⟩]
    ∧ (x.net.ends .opener).requests = [⟨[1], false, []⟩]
    ∧ x.asked .acceptor = x.taken .opener ++ ((x.net.ends .opener).requests
      ++ (x.net.wire .acceptor).filterMap (fun y => y.2.asks)) := by
  have hrun : (logged 0 7).Reachable _ :=
    ⟨[.deliver .acceptor, .act .opener .handle, .act .acceptor (.sendRequest ⟨[1], false, []⟩),
      .deliver .acceptor], rfl⟩
  exact ⟨_, hrun, rfl, rfl, (net_requests 0 7 hrun .acceptor).1⟩

end Ssh
