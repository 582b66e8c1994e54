import Mathlib.Tactic.IntervalCases
import Sesh.SshEnd

/-!
# Two ends of a channel and the wire between them

What one end sends arrives at the other one in the order in which it was
sent. This module is about the terms on which the two ends work: that each
knows the number and the packet size of the other, that the answer to the
open request comes first, and that nothing follows a close.

An end is `Sane` when the loop that reads its packets runs, and its
bookkeeping is that of a channel that is open, or that is somewhere on the
way of closing (`Running`, `Closing`). A `Link` is a sender, what it has on
the wire, and a receiver. Both are kept by every step of the two ends, and a
packet that is delivered over a link is never refused for the number it
carries, its size, or its kind. Whether it is refused for the window is the
subject of `Sesh.SshFlow`.
-/

namespace Ssh

open Channel

namespace End

variable {e e' f f' : End} {ps : List Pkt} {a : Act}

/-! ## An end that waits for its answer -/

/-- **Nothing has been asked of the channel.** -/
structure Pristine (e : End) : Prop where
  writer : ∀ s, (e.lane s).writer = .idle
  reader : ∀ s, (e.lane s).reader = .idle
  todo : e.todo = []
  eofDue : e.eofDue = 0
  sentClose : e.ch.sentClose = false
  removed : e.removed = false
  window : e.ch.remoteWin = ⟨0, false⟩
  direction : e.ch.direction = .outbound
  msg : e.ch.msg.buf = []
  requests : e.ch.incomingRequests.buf = []

/-- An end that waits for its answer does nothing. -/
theorem Pristine.not_step (h : e.Pristine) (hd : e.ch.decided = false) : ¬ Step e a e' ps := by
  intro hs
  have hno : e.ch.decided ≠ true := by rw [hd]; exact Bool.false_ne_true
  cases hs with
  | writeEnded s data hw hd' | write s data hw hd' | read s k d b hr hd'
  | readEOF s k b hr hd' | closeWrite hd' | close hd' | closedAlready hd'
  | tooLarge r hd' | sendRequest r hd' | ackRequest ok hd' => exact hno hd'
  | reserve s data n w hw | refuse s data n w hw | send s n data hw | giveUp s n data hw =>
    rw [h.writer s] at hw
    cases hw
  | addWindow s n hr | announce s n hr | withhold s n hr =>
    rw [h.reader s] at hr
    cases hr
  | sendEOF n hn =>
    rw [h.eofDue] at hn
    cases hn
  | takeMsg m q hq =>
    have hbuf := Chan.buf_of_recv hq
    rw [h.msg] at hbuf
    cases hbuf
  | takeRequest r q hq =>
    have hbuf := Chan.buf_of_recv hq
    rw [h.requests] at hbuf
    cases hbuf
  | handle a todo _ _ ht =>
    rw [h.todo] at ht
    cases ht

/-! ## Closing -/

/-- An action that does not belong to a close. -/
def isCalm : MuxAct → Bool
  | .store _ _ | .eof _ | .post _ | .request _ => true
  | _ => false

/-- **An end that has not received a close.** -/
structure Running (e : End) : Prop where
  removed : e.removed = false
  window : e.ch.remoteWin.closed = false
  calm : ∀ a ∈ e.todo, isCalm a = true

/-- All that is to be done for a close. -/
def closeTodo (id : UInt32) : List MuxAct := .sendClose :: .remove id :: closeActs

/-- **An end that has received a close**, and has done `k` of the seven
actions for it. -/
structure Closing (e : End) (k : ℕ) : Prop where
  le : k ≤ 7
  todo : e.todo = (closeTodo e.ch.localId).drop k
  sentClose : 1 ≤ k → e.ch.sentClose = true
  removed : e.removed = decide (2 ≤ k)
  window : e.ch.remoteWin.closed = decide (7 ≤ k)

/-- An end has received a close. -/
def GotClose (e : End) : Prop := ∃ k, e.Closing k

theorem Running.not_gotClose (h : e.Running) : ¬ e.GotClose := by
  rintro ⟨k, hk⟩
  by_cases h₂ : 2 ≤ k
  · have hr := hk.removed
    rw [h.removed, decide_eq_true h₂] at hr
    cases hr
  · have hmem : .remove e.ch.localId ∈ e.todo := by
      rw [hk.todo]
      obtain rfl | rfl : k = 0 ∨ k = 1 := by omega
      · exact List.mem_cons_of_mem _ List.mem_cons_self
      · exact List.mem_cons_self
    cases h.calm _ hmem

/-- What only the goroutine that handles packets touches. -/
theorem control_of_step (h : Step e a e' ps) (ha : a ≠ .handle) :
    e'.todo = e.todo ∧ e'.removed = e.removed
      ∧ e'.ch.remoteWin.closed = e.ch.remoteWin.closed
      ∧ e'.ch.sentClose = (e.ch.sentClose || ps.any isClose) := by
  cases h with
  | reserve s data n w hw hr =>
    exact ⟨rfl, rfl, (Window.reserve_cases hr).2.2.2, (Bool.or_false _).symm⟩
  | refuse s data n w hw hr =>
    exact ⟨rfl, rfl, (Window.reserve_cases hr).2.2.2, (Bool.or_false _).symm⟩
  | read s k d b hr hd hb => cases s <;> exact ⟨rfl, rfl, rfl, (Bool.or_false _).symm⟩
  | readEOF s k b hr hd hb => cases s <;> exact ⟨rfl, rfl, rfl, (Bool.or_false _).symm⟩
  | sendEOF n hn ps hps | sendRequest r hd hr ps hps | ackRequest ok hd ps hps =>
    refine ⟨rfl, rfl, rfl, ?_⟩
    rw [hps]
    split <;> exact (Bool.or_false _).symm
  | close hd hc => exact ⟨rfl, rfl, rfl, (Bool.or_true _).symm⟩
  | handle => exact absurd rfl ha
  | _ => exact ⟨rfl, rfl, rfl, (Bool.or_false _).symm⟩

/-- **Nothing is sent behind a close.** -/
theorem sent_of_sentClose (h : Step e a e' ps) (hc : e.ch.sentClose = true) : ps = [] := by
  cases h with
  | send s n data hw hc' | announce s n hr hc' | close hd hc' =>
    rw [hc] at hc'
    cases hc'
  | sendEOF n hn ps hps | sendRequest r hd hr ps hps | ackRequest ok hd ps hps =>
    rw [hps, if_pos hc]
  | handle b todo _ _ ht hh =>
    cases hh with
    | sendClose hc' =>
      have hc'' : e.ch.sentClose = false := hc'
      rw [hc] at hc''
      cases hc''
    | _ => rfl
  | _ => rfl

/-- A step sends at most one packet. -/
theorem pairwise_of_step {R : Pkt → Pkt → Prop} (h : Step e a e' ps) : ps.Pairwise R := by
  cases h with
  | sendEOF n hn ps hps | sendRequest r hd hr ps hps | ackRequest ok hd ps hps =>
    rw [hps]
    split
    · exact .nil
    · exact List.pairwise_singleton _ _
  | handle b todo _ _ ht hh =>
    cases hh with
    | sendClose => exact List.pairwise_singleton _ _
    | _ => exact .nil
  | send | announce | close => exact List.pairwise_singleton _ _
  | _ => exact .nil

/-- An action that does not belong to a close leaves an end running. -/
theorem Running.handled {b : MuxAct} (h : e.Running) (hb : isCalm b = true)
    (hh : Handled e b e' ps) :
    e'.Running ∧ e'.ch.sentClose = (e.ch.sentClose || ps.any isClose) := by
  cases hh with
  | store s data => cases s <;> exact ⟨⟨h.removed, h.window, h.calm⟩, (Bool.or_false _).symm⟩
  | eof s => cases s <;> exact ⟨⟨h.removed, h.window, h.calm⟩, (Bool.or_false _).symm⟩
  | discard n data | post m q hq | request r q hq =>
    exact ⟨⟨h.removed, h.window, h.calm⟩, (Bool.or_false _).symm⟩
  | sendClose | sentClose | remove | closeQueues | setSentClose | closeWindow => cases hb

theorem Running.step (h : e.Running) (hs : Step e a e' ps) :
    e'.Running ∧ e'.ch.sentClose = (e.ch.sentClose || ps.any isClose) := by
  by_cases ha : a = .handle
  · subst ha
    cases hs with
    | handle b todo _ _ ht hh =>
      have hcalm := h.calm
      rw [ht] at hcalm
      have hrun : ({ e with todo } : End).Running :=
        ⟨h.removed, h.window, fun c hc => hcalm c (List.mem_cons_of_mem b hc)⟩
      exact hrun.handled (hcalm b List.mem_cons_self) hh
  · obtain ⟨htodo, hremoved, hwin, hsent⟩ := control_of_step hs ha
    exact ⟨⟨hremoved.trans h.removed, hwin.trans h.window, by rw [htodo]; exact h.calm⟩, hsent⟩

/-- **The seven actions of a close**, one by one. -/
theorem Closing.handle {k : ℕ} {b : MuxAct} {todo : List MuxAct} (h : e.Closing k)
    (ht : e.todo = b :: todo) (hh : Handled { e with todo } b e' ps) :
    e'.Closing (k + 1) ∧ e'.ch.sentClose = (e.ch.sentClose || ps.any isClose) := by
  have htodo := h.todo
  have hle := h.le
  have hsent := h.sentClose
  have hrem := h.removed
  have hwin := h.window
  rw [ht] at htodo
  interval_cases k
  · -- the answer to the close
    obtain ⟨rfl, rfl⟩ := List.cons.inj htodo
    cases hh with
    | sendClose hc => exact ⟨⟨by omega, rfl, fun _ => rfl, hrem, hwin⟩, (Bool.or_true _).symm⟩
    | sentClose hc => exact ⟨⟨by omega, rfl, fun _ => hc, hrem, hwin⟩, (Bool.or_false _).symm⟩
  · obtain ⟨rfl, rfl⟩ := List.cons.inj htodo
    cases hh with
    | remove =>
      refine ⟨⟨by omega, rfl, fun _ => hsent (by omega), ?_, hwin⟩, (Bool.or_false _).symm⟩
      show (e.removed || e.ch.localId == e.ch.localId) = true
      rw [beq_self_eq_true, Bool.or_true]
  · obtain ⟨rfl, rfl⟩ := List.cons.inj htodo
    cases hh with
    | eof => exact ⟨⟨by omega, rfl, fun _ => hsent (by omega), hrem, hwin⟩, (Bool.or_false _).symm⟩
  · obtain ⟨rfl, rfl⟩ := List.cons.inj htodo
    cases hh with
    | eof => exact ⟨⟨by omega, rfl, fun _ => hsent (by omega), hrem, hwin⟩, (Bool.or_false _).symm⟩
  · obtain ⟨rfl, rfl⟩ := List.cons.inj htodo
    cases hh with
    | closeQueues =>
      exact ⟨⟨by omega, rfl, fun _ => hsent (by omega), hrem, hwin⟩, (Bool.or_false _).symm⟩
  · obtain ⟨rfl, rfl⟩ := List.cons.inj htodo
    cases hh with
    | setSentClose =>
      refine ⟨⟨by omega, rfl, fun _ => rfl, hrem, hwin⟩, ?_⟩
      rw [hsent (by omega)]
      rfl
  · obtain ⟨rfl, rfl⟩ := List.cons.inj htodo
    cases hh with
    | closeWindow =>
      exact ⟨⟨by omega, rfl, fun _ => hsent (by omega), hrem, rfl⟩, (Bool.or_false _).symm⟩
  · cases htodo

theorem Closing.step {k : ℕ} (h : e.Closing k) (hs : Step e a e' ps) :
    (∃ k', e'.Closing k') ∧ e'.ch.sentClose = (e.ch.sentClose || ps.any isClose) := by
  by_cases ha : a = .handle
  · subst ha
    cases hs with
    | handle b todo _ _ ht hh =>
      obtain ⟨hk, hsent⟩ := h.handle ht hh
      exact ⟨⟨k + 1, hk⟩, hsent⟩
  · obtain ⟨htodo, hremoved, hwin, hsent⟩ := control_of_step hs ha
    have hid : e'.ch.localId = e.ch.localId := congrArg Terms.localId (terms_of_step hs)
    refine ⟨⟨k, h.le, ?_, fun hk => ?_, hremoved.trans h.removed, hwin.trans h.window⟩, hsent⟩
    · rw [htodo, hid, h.todo]
    · rw [hsent, h.sentClose hk, Bool.true_or]

/-! ## One end -/

/-- **An end whose books are in order.** -/
structure Sane (e : End) : Prop where
  wf : e.Wf
  failed : e.failed = none
  incoming : e.ch.maxIncomingPayload = channelMaxPacket
  phase : e.Running ∨ e.GotClose
  pristine : e.ch.decided = false → e.Pristine

/-- A step is taken by an end that is open. -/
theorem Sane.decided (h : e.Sane) (hs : Step e a e' ps) : e.ch.decided = true := by
  cases hd : e.ch.decided with
  | true => rfl
  | false => exact absurd hs ((h.pristine hd).not_step hd)

theorem Sane.step (h : e.Sane) (hs : Step e a e' ps) :
    e'.Sane ∧ (e'.GotClose ↔ e.GotClose)
      ∧ e'.ch.sentClose = (e.ch.sentClose || ps.any isClose) := by
  have hterms := terms_of_step hs
  have hdec : e'.ch.decided = true :=
    (congrArg Terms.decided hterms).trans (h.decided hs)
  have hfailed : e'.failed = none := (congrArg Terms.failed hterms).trans h.failed
  have hin : e'.ch.maxIncomingPayload = channelMaxPacket :=
    (congrArg Terms.maxIncomingPayload hterms).trans h.incoming
  have hpristine : e'.ch.decided = false → e'.Pristine := by
    rw [hdec]
    nofun
  obtain hrun | ⟨k, hk⟩ := h.phase
  · obtain ⟨hrun', hsent⟩ := hrun.step hs
    exact ⟨⟨h.wf.step hs, hfailed, hin, .inl hrun', hpristine⟩,
      ⟨fun hc => absurd hc hrun'.not_gotClose, fun hc => absurd hc hrun.not_gotClose⟩, hsent⟩
  · obtain ⟨hk', hsent⟩ := hk.step hs
    exact ⟨⟨h.wf.step hs, hfailed, hin, .inr hk', hpristine⟩,
      ⟨fun _ => ⟨k, hk⟩, fun _ => hk'⟩, hsent⟩

/-! ## A sender, its wire, and a receiver -/

/-- What is allowed on the wire: data and requests of a size that the peer
takes. -/
def Fits (id : UInt32) : Pkt → Prop
  | .data _ d => d.length ≤ channelMaxPacket
  | .request r => ((Pkt.request r).bytes id).length ≤ maxPacket
  | _ => True

/-- Whether a packet is an answer to an open request. -/
def isConfirm : Pkt → Bool
  | .confirm _ => true
  | _ => false

/-- The answer of `f` to the request of `e`. -/
def answer (f e : End) : channelOpenConfirmMsg.Val :=
  (e.ch.localId, f.ch.localId, UInt32.ofNat channelWindowSize, UInt32.ofNat channelMaxPacket, [], ())

theorem answer_congr (h : f'.ch.localId = f.ch.localId) : answer f' e = answer f e := by
  unfold answer
  rw [h]

/-- **A sender `f`, what it has on the wire, and the receiver `e`.** -/
structure Link (f : End) (w : List (UInt32 × Pkt)) (e : End) : Prop where
  ids : ∀ x ∈ w, x.1 = e.ch.localId
  fits : ∀ x ∈ w, Fits x.1 x.2
  /-- The sender knows the terms of the receiver. -/
  terms : f.ch.decided = true →
    f.ch.remoteId = e.ch.localId ∧ f.ch.maxRemotePayload = channelMaxPacket
  decided : e.ch.decided = true → ∀ x ∈ w, isConfirm x.2 = false
  /-- A receiver that waits for its answer gets it first. -/
  undecided : e.ch.decided = false → ∃ rest, w = (e.ch.localId, .confirm (answer f e)) :: rest
    ∧ ∀ x ∈ rest, isConfirm x.2 = false
  /-- Nothing follows a close. -/
  last : w.Pairwise (fun x _ => isClose x.2 = false)
  closed : f.ch.sentClose = true ↔ (∃ x ∈ w, isClose x.2 = true) ∨ e.GotClose
  quiet : e.GotClose → w = []

/-- What a step may send. -/
theorem fits_of_step (hwf : e.Wf) (h : Step e a e' ps)
    (hmax : e.ch.maxRemotePayload = channelMaxPacket) :
    ∀ k ∈ ps, Fits e.ch.remoteId k ∧ isConfirm k = false := by
  have hone : ∀ {q : Pkt}, Fits e.ch.remoteId q → isConfirm q = false →
      ∀ k ∈ [q], Fits e.ch.remoteId k ∧ isConfirm k = false := by
    intro q hq hc k hk
    rw [List.mem_singleton.mp hk]
    exact ⟨hq, hc⟩
  have hif : ∀ {q : Pkt} {b : Bool}, Fits e.ch.remoteId q → isConfirm q = false →
      ∀ k ∈ (if b then [] else [q]), Fits e.ch.remoteId k ∧ isConfirm k = false := by
    intro q b hq hc
    split
    · nofun
    · exact hone hq hc
  cases h with
  | send s n data hw hc =>
    have hs := hwf s
    rw [hw] at hs
    refine hone ?_ rfl
    show (data.take n).length ≤ channelMaxPacket
    rw [List.length_take_of_le hs.2.1, ← hmax]
    exact hs.2.2
  | announce s n hr hc => exact hone trivial rfl
  | close hd hc => exact hone trivial rfl
  | sendEOF n hn ps hps =>
    rw [hps]
    exact hif trivial rfl
  | sendRequest r hd hr ps hps =>
    rw [hps]
    exact hif hr rfl
  | ackRequest ok hd ps hps =>
    rw [hps]
    exact hif trivial rfl
  | handle b todo _ _ ht hh =>
    cases hh with
    | sendClose hc => exact hone trivial rfl
    | _ => nofun
  | _ => nofun

/-- **The sender takes a step.** -/
theorem Link.send {w : List (UInt32 × Pkt)} (h : Link f w e) (hf : f.Sane)
    (hs : Step f a f' ps) : Link f' (w ++ ps.map (fun k => (f.ch.remoteId, k))) e := by
  have hterms := terms_of_step hs
  have hdec : f.ch.decided = true := hf.decided hs
  obtain ⟨hremote, hmax⟩ := h.terms hdec
  have hfits := fits_of_step hf.wf hs hmax
  obtain ⟨-, -, hsent⟩ := hf.step hs
  have hnew : ∀ x ∈ w ++ ps.map (fun k => (f.ch.remoteId, k)),
      x ∈ w ∨ ∃ k ∈ ps, x = (f.ch.remoteId, k) := by
    intro x hx
    rcases List.mem_append.mp hx with hx | hx
    · exact .inl hx
    · obtain ⟨k, hk, rfl⟩ := List.mem_map.mp hx
      exact .inr ⟨k, hk, rfl⟩
  -- what is on the wire when something is sent is no close
  have hopen : ps ≠ [] → (∀ x ∈ w, isClose x.2 = false) ∧ ¬ e.GotClose := by
    intro hne
    have hns : ¬ f.ch.sentClose = true := fun hc => hne (sent_of_sentClose hs hc)
    rw [h.closed, not_or] at hns
    exact ⟨fun x hx => by
      cases hcl : isClose x.2 with
      | false => rfl
      | true => exact absurd ⟨x, hx, hcl⟩ hns.1, hns.2⟩
  refine ⟨?_, ?_, ?_, ?_, ?_, ?_, ?_, ?_⟩
  · intro x hx
    rcases hnew x hx with hx | ⟨k, -, rfl⟩
    · exact h.ids x hx
    · exact hremote
  · intro x hx
    rcases hnew x hx with hx | ⟨k, hk, rfl⟩
    · exact h.fits x hx
    · exact (hfits k hk).1
  · intro _
    rw [show f'.ch.remoteId = f.ch.remoteId from congrArg Terms.remoteId hterms,
      show f'.ch.maxRemotePayload = f.ch.maxRemotePayload from
        congrArg Terms.maxRemotePayload hterms]
    exact ⟨hremote, hmax⟩
  · intro hd x hx
    rcases hnew x hx with hx | ⟨k, hk, rfl⟩
    · exact h.decided hd x hx
    · exact (hfits k hk).2
  · intro hd
    obtain ⟨rest, rfl, hrest⟩ := h.undecided hd
    have hid : f'.ch.localId = f.ch.localId := congrArg Terms.localId hterms
    refine ⟨rest ++ ps.map (fun k => (f.ch.remoteId, k)), ?_, fun x hx => ?_⟩
    · rw [answer_congr hid]
      rfl
    · rcases List.mem_append.mp hx with hx | hx
      · exact hrest x hx
      · obtain ⟨k, hk, rfl⟩ := List.mem_map.mp hx
        exact (hfits k hk).2
  · rw [List.pairwise_append]
    refine ⟨h.last, ?_, fun x hx y hy => ?_⟩
    · rw [List.pairwise_map]
      exact pairwise_of_step hs
    · obtain ⟨k, hk, rfl⟩ := List.mem_map.mp hy
      exact (hopen (List.ne_nil_of_mem hk)).1 x hx
  · rw [hsent, Bool.or_eq_true, h.closed, List.any_eq_true]
    constructor
    · rintro ((⟨x, hx, hc⟩ | hg) | ⟨k, hk, hc⟩)
      · exact .inl ⟨x, List.mem_append_left _ hx, hc⟩
      · exact .inr hg
      · exact .inl ⟨_, List.mem_append_right _ (List.mem_map_of_mem hk), hc⟩
    · rintro (⟨x, hx, hc⟩ | hg)
      · rcases hnew x hx with hx | ⟨k, hk, rfl⟩
        · exact .inl (.inl ⟨x, hx, hc⟩)
        · exact .inr ⟨k, hk, hc⟩
      · exact .inl (.inr hg)
  · intro hg
    have hps : ps = [] := by
      by_contra hne
      exact (hopen hne).2 hg
    rw [hps, h.quiet hg]
    rfl

/-- **The receiver takes a step.** -/
theorem Link.work {w : List (UInt32 × Pkt)} (h : Link f w e) (he : e.Sane)
    (hs : Step e a e' ps) : Link f w e' := by
  have hterms := terms_of_step hs
  obtain ⟨-, hgot, -⟩ := he.step hs
  have hid : e'.ch.localId = e.ch.localId := congrArg Terms.localId hterms
  have hdec : e'.ch.decided = e.ch.decided := congrArg Terms.decided hterms
  refine ⟨?_, h.fits, ?_, ?_, ?_, h.last, ?_, fun hg => h.quiet (hgot.mp hg)⟩
  · rw [hid]
    exact h.ids
  · rw [hid]
    exact h.terms
  · rw [hdec]
    exact h.decided
  · rw [hdec, answer, hid]
    exact h.undecided
  · rw [hgot]
    exact h.closed

/-! ## A packet arrives -/

/-- **What a packet of the peer `f` does to an end.** -/
inductive Delivered (f e : End) : Pkt → End → Prop
  | data (s : Stream) (d : Bytes) : Delivered f e (.data s d) { e with
      ch := { e.ch with myWindow := e.ch.myWindow - d.length }
      todo := if d = [] then [] else [.store s.extendedCode d] }
  | windowAdjust (n : ℕ) : Delivered f e (.windowAdjust n) { e with
      ch := { e.ch with remoteWin := { e.ch.remoteWin with win := e.ch.remoteWin.win + n } }
      todo := [] }
  | eof : Delivered f e .eof { e with todo := [.eof .stderr, .eof .stdout] }
  | close : Delivered f e .close { e with todo := closeTodo e.ch.localId }
  | confirm (m : Message) : Delivered f e (.confirm (answer f e)) { e with
      ch := { e.ch with
        decided := true
        remoteId := f.ch.localId
        maxRemotePayload := channelMaxPacket
        remoteWin := { e.ch.remoteWin with win := channelWindowSize } }
      todo := [.post m] }
  | request (r : ChannelRequest) : Delivered f e (.request r) { e with todo := [.request r] }
  | reply (ok : Bool) (m : Message) : Delivered f e (.reply ok) { e with todo := [.post m] }

theorem deliver_of_handlePacket {id : UInt32} {k : Pkt} {opCode : UInt8} {body : Bytes}
    {ch : Channel} {todo : List MuxAct} (hk : k.bytes id = opCode :: body)
    (hop : msgChannelOpen < opCode)
    (hfailed : e.failed = none) (htodo : e.todo = []) (hrem : e.removed = false)
    (hid : id = e.ch.localId) (hp : e.ch.handlePacket opCode body = .ok (ch, todo)) :
    e.deliver (k.bytes id) = some { e with ch, todo } := by
  have hlen := length_bytes_ge id k
  have hpid := packetId_bytes id k
  rw [hk] at hlen hpid ⊢
  rw [deliver, hfailed, htodo, if_neg (by decide)]
  simp only [connectionPacket_eq_none hop]
  rw [if_neg (by omega), hrem, hpid, if_neg (by rw [hid]; simp), hp]

/-- An end that gets a packet has not received a close. -/
theorem Link.running {x : UInt32 × Pkt} {w : List (UInt32 × Pkt)} (h : Link f (x :: w) e)
    (he : e.Sane) : e.Running := by
  rcases he.phase with hrun | hg
  · exact hrun
  · cases h.quiet hg

/-- **A packet that fits in the window is never refused.** -/
theorem Link.deliver {id : UInt32} {k : Pkt} {w : List (UInt32 × Pkt)}
    (h : Link f ((id, k) :: w) e) (he : e.Sane) (htodo : e.todo = [])
    (hdata : ∀ s d, k = .data s d → d.length ≤ e.ch.myWindow)
    (hwin : ∀ n, k = .windowAdjust n → e.ch.remoteWin.win + n < 2 ^ 32) :
    ∃ e', e.deliver (k.bytes id) = some e' ∧ Delivered f e k e' := by
  have hid : id = e.ch.localId := h.ids _ List.mem_cons_self
  have hrem := (h.running he).removed
  have hfits := h.fits _ List.mem_cons_self
  obtain ⟨opCode, rest, hk, hop⟩ := exists_bytes id k
  have hdel := fun ch todo
    (hp : e.ch.handlePacket opCode (putUint32 id.toNat ++ rest) = .ok (ch, todo)) =>
      deliver_of_handlePacket hk hop he.failed htodo hrem hid hp
  cases k with
  | data s d =>
    have hd : d.length ≤ channelMaxPacket := hfits
    have hp := handlePacket_data (c := e.ch) hk (by rw [he.incoming]; exact hd)
      (hdata s d rfl) (lt_of_le_of_lt hd (by decide))
    exact ⟨_, hdel _ _ hp, .data s d⟩
  | windowAdjust n =>
    exact ⟨_, hdel _ _ (handlePacket_windowAdjust hk (hwin n rfl)), .windowAdjust n⟩
  | eof => exact ⟨_, hdel _ _ (handlePacket_eof hk), .eof⟩
  | close => exact ⟨_, hdel _ _ (handlePacket_close hk), .close⟩
  | request r => exact ⟨_, hdel _ _ (handlePacket_request hk hfits), .request r⟩
  | reply ok =>
    obtain ⟨m, hp⟩ := handlePacket_reply (c := e.ch) hk
    exact ⟨_, hdel _ _ hp, .reply ok m⟩
  | confirm m =>
    -- the answer comes while it is awaited, and it is the one of the peer
    cases hdec : e.ch.decided with
    | true => cases h.decided hdec _ List.mem_cons_self
    | false =>
      obtain ⟨rest', hw, -⟩ := h.undecided hdec
      obtain ⟨hx, -⟩ := List.cons.inj hw
      obtain rfl : m = answer f e := Pkt.confirm.inj (Prod.mk.inj hx).2
      have hpr := he.pristine hdec
      have hsize : (UInt32.ofNat channelMaxPacket).toNat = channelMaxPacket := rfl
      have hfull : (UInt32.ofNat channelWindowSize).toNat = channelWindowSize := rfl
      have hp := @handlePacket_confirm e.ch id e.ch.localId f.ch.localId
        (UInt32.ofNat channelWindowSize) (UInt32.ofNat channelMaxPacket) _ _ hk hpr.direction hdec
        (by rw [hsize]; decide) (by rw [hsize]; decide) (by rw [hpr.window])
      rw [hsize, hfull] at hp
      exact ⟨_, hdel _ _ hp, .confirm _⟩

/-- **An answer reaches an end that waits for one, and only that.** -/
theorem Link.decided_eq {id : UInt32} {k : Pkt} {w : List (UInt32 × Pkt)}
    (h : Link f ((id, k) :: w) e) : e.ch.decided = !isConfirm k := by
  cases hdec : e.ch.decided with
  | true =>
    have hk : isConfirm k = false := h.decided hdec _ List.mem_cons_self
    rw [hk]
    rfl
  | false =>
    obtain ⟨rest, hw, -⟩ := h.undecided hdec
    rw [(Prod.mk.inj (List.cons.inj hw).1).2]
    rfl

/-- What a delivery does to the books of an end. -/
theorem Delivered.control {k : Pkt} (h : Delivered f e k e') (he : e.Running) :
    (isClose k = false ∧ e'.Running) ∨ (isClose k = true ∧ e'.Closing 0) := by
  have hcalm : ∀ b, isCalm b = true → ∀ a ∈ [b], isCalm a = true := by
    intro b hb a ha
    rw [List.mem_singleton.mp ha]
    exact hb
  cases h with
  | close => exact .inr ⟨rfl, by omega, rfl, by omega, he.removed, he.window⟩
  | data s d =>
    refine .inl ⟨rfl, he.removed, he.window, ?_⟩
    show ∀ a ∈ (if d = [] then [] else [MuxAct.store s.extendedCode d]), isCalm a = true
    split
    · nofun
    · exact hcalm _ rfl
  | windowAdjust n => exact .inl ⟨rfl, he.removed, he.window, nofun⟩
  | eof =>
    refine .inl ⟨rfl, he.removed, he.window, ?_⟩
    intro a ha
    rcases List.mem_cons.mp ha with rfl | ha
    · rfl
    · exact hcalm _ rfl a ha
  | confirm m => exact .inl ⟨rfl, he.removed, he.window, hcalm _ rfl⟩
  | request r => exact .inl ⟨rfl, he.removed, he.window, hcalm _ rfl⟩
  | reply ok m => exact .inl ⟨rfl, he.removed, he.window, hcalm _ rfl⟩

/-- What a delivery leaves alone. -/
theorem Delivered.keeps {k : Pkt} (h : Delivered f e k e') :
    e'.lane = e.lane ∧ e'.ch.localId = e.ch.localId ∧ e'.ch.sentClose = e.ch.sentClose
      ∧ e'.failed = e.failed ∧ e'.ch.maxIncomingPayload = e.ch.maxIncomingPayload
      ∧ e'.eofDue = e.eofDue ∧ e'.ch.sentEOF = e.ch.sentEOF := by
  cases h <;> exact ⟨rfl, rfl, rfl, rfl, rfl, rfl, rfl⟩

/-- After a delivery the terms are settled. -/
theorem Delivered.terms {k : Pkt} (h : Delivered f e k e') (hk : e.ch.decided = !isConfirm k) :
    e'.ch.decided = true
      ∧ ((e.ch.decided = true ∧ e'.ch.remoteId = e.ch.remoteId
          ∧ e'.ch.maxRemotePayload = e.ch.maxRemotePayload)
        ∨ (e.ch.decided = false ∧ e'.ch.remoteId = f.ch.localId
          ∧ e'.ch.maxRemotePayload = channelMaxPacket)) := by
  cases h with
  | confirm m => exact ⟨rfl, .inr ⟨hk, rfl, rfl⟩⟩
  | _ => exact ⟨hk, .inl ⟨hk, rfl, rfl⟩⟩

theorem Wf.delivered {k : Pkt} (h : e.Wf) (hd : Delivered f e k e')
    (hk : e.ch.decided = !isConfirm k) (hp : e.ch.decided = false → e.Pristine) : e'.Wf := by
  intro s
  rw [hd.keeps.1]
  obtain ⟨hdec, ⟨hdec₀, -, hmax⟩ | ⟨hdec₀, -⟩⟩ := hd.terms hk
  · have hs := h s
    rwa [hdec, hmax, ← hdec₀]
  · rw [(hp hdec₀).writer s]
    trivial

/-- **A delivery keeps the books in order.** -/
theorem Sane.delivered {id : UInt32} {k : Pkt} {w : List (UInt32 × Pkt)}
    (he : e.Sane) (h : Link f ((id, k) :: w) e) (hd : Delivered f e k e') : e'.Sane := by
  obtain ⟨-, -, -, hfailed, hin, -⟩ := hd.keeps
  have hrun := h.running he
  refine ⟨he.wf.delivered hd h.decided_eq he.pristine, hfailed.trans he.failed,
    hin.trans he.incoming, ?_, ?_⟩
  · rcases hd.control hrun with ⟨-, hrun'⟩ | ⟨-, hclosing⟩
    · exact .inl hrun'
    · exact .inr ⟨0, hclosing⟩
  · rw [(hd.terms h.decided_eq).1]
    nofun

/-- **The receiver gets a packet.** -/
theorem Link.delivered {id : UInt32} {k : Pkt} {w : List (UInt32 × Pkt)}
    (h : Link f ((id, k) :: w) e) (he : e.Sane) (hd : Delivered f e k e') : Link f w e' := by
  obtain ⟨-, hid, -, -, -, -⟩ := hd.keeps
  have hrun := h.running he
  obtain ⟨hlast, hlast'⟩ := List.pairwise_cons.mp h.last
  -- nothing comes behind the close
  have hnil : isClose k = true → w = [] := by
    intro hc
    refine List.eq_nil_iff_forall_not_mem.mpr fun x hx => ?_
    have := hlast x hx
    rw [hc] at this
    cases this
  have hgot : e'.GotClose ↔ isClose k = true := by
    rcases hd.control hrun with ⟨hc, hrun'⟩ | ⟨hc, hclosing⟩
    · rw [hc]
      exact ⟨fun hg => absurd hg hrun'.not_gotClose, nofun⟩
    · exact ⟨fun _ => hc, fun _ => ⟨0, hclosing⟩⟩
  refine ⟨?_, fun x hx => h.fits x (List.mem_cons_of_mem _ hx), ?_, ?_, ?_, hlast', ?_,
    fun hg => hnil (hgot.mp hg)⟩
  · intro x hx
    rw [hid]
    exact h.ids x (List.mem_cons_of_mem _ hx)
  · rw [hid]
    exact h.terms
  · intro _ x hx
    cases hdec : e.ch.decided with
    | true => exact h.decided hdec x (List.mem_cons_of_mem _ hx)
    | false =>
      obtain ⟨rest, hw, hrest⟩ := h.undecided hdec
      rw [(List.cons.inj hw).2] at hx
      exact hrest x hx
  · rw [(hd.terms h.decided_eq).1]
    nofun
  · rw [h.closed, hgot]
    constructor
    · rintro (⟨x, hx, hc⟩ | hg)
      · rcases List.mem_cons.mp hx with rfl | hx
        · exact .inr hc
        · exact .inl ⟨x, hx, hc⟩
      · exact absurd hg hrun.not_gotClose
    · rintro (⟨x, hx, hc⟩ | hc)
      · exact .inl ⟨x, List.mem_cons_of_mem _ hx, hc⟩
      · exact .inl ⟨(id, k), List.mem_cons_self, hc⟩

/-- **The sender gets a packet.** -/
theorem Link.heard {k : Pkt} {w : List (UInt32 × Pkt)} (h : Link e w f)
    (hd : Delivered f e k e') (hk : e.ch.decided = !isConfirm k) : Link e' w f := by
  obtain ⟨-, hid, hsent, -⟩ := hd.keeps
  refine ⟨h.ids, h.fits, fun _ => ?_, h.decided, fun hdec => ?_, h.last, ?_, h.quiet⟩
  · obtain ⟨-, ⟨hdec, hremote, hmax⟩ | ⟨-, hremote, hmax⟩⟩ := hd.terms hk
    · rw [hremote, hmax]
      exact h.terms hdec
    · exact ⟨hremote, hmax⟩
  · rw [answer_congr hid]
    exact h.undecided hdec
  · rw [hsent]
    exact h.closed

end End

end Ssh
