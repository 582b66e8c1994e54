import Sesh.Chan
import Sesh.Machine

/-!
# The live view and its shutdown

While a batch runs on a terminal, `ParallelRun` shows the output of the
hosts in a view of its own (`dir_cat.go`, over `gocui`). Three goroutines
take part. That of `ParallelRun` waits for the tasks, calls `Stop`, which
sends two messages on a channel of capacity one, and goes on to merge the
results. That of `Start` runs `MainLoop`, which handles events and leaves
on a message, on Ctrl-C, on an error event or when a redraw fails, and then
closes the terminal. The third redraws the view on every tick, and leaves
on a message.

The machine `ui` has one label for each step of each of them, and for an
event that arrives; the outcome of a redraw is part of the label. Every
fact about it rests on one count (`UiState.Inv`): the messages sent are
those buffered and those received, and each of the two loops has received
one exactly if it has left because of it.

From that count, `stop_never_deadlocks` says that `Stop` comes to its end
and how. `MainLoop` need not be through by then: it may be working off an
event that ends it (`stop_returns_before_main_loop`). The other two results
say where the shutdown is not complete: `merge_after_close` that the results
are printed on a released terminal exactly when they are printed after `Start`
has nothing more to do, and `no_draw_after_close` that nothing is drawn after
the terminal is released exactly when the redrawing goroutine had left before.
-/

/-- The messages of `Stop`. -/
inductive UiMessage
  | quit1
  | quit2
  deriving DecidableEq, Repr

/-- The keys the view has handlers for. -/
inductive UiKey
  | ctrlC
  | arrowDown
  | ctrlN
  | arrowUp
  | ctrlP
  | other
  deriving DecidableEq, Repr

/-- The events of the terminal: a key, an error, or anything else, such as a
change of its size. -/
inductive UiEvent
  | key (k : UiKey)
  | error
  | other
  deriving DecidableEq, Repr

/-- Why `MainLoop` returned: it received a message, the handler of Ctrl-C
returned `ErrorQuit`, or something failed. -/
inductive LoopExit
  | message
  | quit
  | error
  deriving DecidableEq, Repr

/-- `handleEvent`, with the handlers `Init` installs: what it makes
`MainLoop` return, if anything. -/
def handleEvent : UiEvent → Option LoopExit
  | .key .ctrlC => some .quit
  | .key .arrowDown => none
  | .key .ctrlN => none
  | .key .arrowUp => none
  | .key .ctrlP => none
  | .key .other => none
  | .error => some .error
  | .other => none

/-- Where the goroutine of `ParallelRun` stands: at the wait for its tasks,
before either send of `Stop`, past `Stop`, or past the first line of the
merge. -/
inductive StopPc
  | waiting
  | sendQuit1
  | sendQuit2
  | stopped
  | merging
  deriving DecidableEq, Repr

/-- Where the goroutine of `Start` stands: not scheduled yet, in the first
redraw of `MainLoop`, at its select, handling an event, looking for more
events, in the redraw after them, returned from `MainLoop`, or past the
deferred `Close`. -/
inductive LoopPc
  | notStarted
  | firstFlush
  | select
  | handling (e : UiEvent)
  | consuming
  | flushing
  | returned (x : LoopExit)
  | closed (x : LoopExit)
  deriving DecidableEq, Repr

/-- Where the goroutine that redraws stands: not started, at its select, in
`drawCenter`, or gone. -/
inductive FlushPc
  | notSpawned
  | select
  | drawing
  | exited
  deriving DecidableEq, Repr

/-- The state of the live view. -/
structure UiState where
  /-- Where `ParallelRun` stands. -/
  stop : StopPc
  /-- Where `Start` stands. -/
  loop : LoopPc
  /-- Where the goroutine that redraws stands. -/
  flush : FlushPc
  /-- `UserMessage`. -/
  messages : Chan UiMessage 1
  /-- `events`. -/
  events : Chan UiEvent 20
  /-- Whether the event `SetLayout` sends is still to come. -/
  resizePending : Bool
  deriving DecidableEq

/-- The steps: those of `ParallelRun`, of `Start`, of the goroutine that
redraws, and of what goes on around them. -/
inductive UiLabel
  | wait
  | sendQuit1
  | sendQuit2
  | merge
  | start
  | firstFlush (ok : Bool)
  | takeEvent
  | mainReceive
  | handle
  | consume
  | flush (ok : Bool)
  | close
  | tick
  | draw
  | flushReceive
  | resize
  | pollEvent (e : UiEvent)
  deriving DecidableEq, Repr

/-- Who takes a step. A tick and an event come from outside. -/
inductive UiParty
  | parallelRun
  | start
  | flush
  | outside
  deriving DecidableEq, Repr

/-- The party of a step. -/
def UiLabel.party : UiLabel → UiParty
  | .wait => .parallelRun
  | .sendQuit1 => .parallelRun
  | .sendQuit2 => .parallelRun
  | .merge => .parallelRun
  | .start => .start
  | .firstFlush _ => .start
  | .takeEvent => .start
  | .mainReceive => .start
  | .handle => .start
  | .consume => .start
  | .flush _ => .start
  | .close => .start
  | .tick => .outside
  | .draw => .flush
  | .flushReceive => .flush
  | .resize => .outside
  | .pollEvent _ => .outside

namespace UiState

/-- Where `MainLoop` goes after a redraw. -/
def afterFlush (ok : Bool) : LoopPc := if ok then .select else .returned .error

/-- Where `MainLoop` goes after an event was handled. -/
def afterHandle (e : UiEvent) : LoopPc :=
  match handleEvent e with
  | some x => .returned x
  | none => .consuming

/-- What a step does. -/
def step (s : UiState) : UiLabel → Option UiState
  | .wait =>
    if s.stop = .waiting then some { s with stop := .sendQuit1 } else none
  | .sendQuit1 =>
    if s.stop = .sendQuit1 then
      (s.messages.send .quit1).map (fun m =>
        { s with messages := m, stop := .sendQuit2 })
    else none
  | .sendQuit2 =>
    if s.stop = .sendQuit2 then
      (s.messages.send .quit2).map (fun m =>
        { s with messages := m, stop := .stopped })
    else none
  | .merge =>
    if s.stop = .stopped then some { s with stop := .merging } else none
  | .start =>
    if s.loop = .notStarted then
      some { s with loop := .firstFlush, flush := .select }
    else none
  | .firstFlush ok =>
    if s.loop = .firstFlush then some { s with loop := afterFlush ok } else none
  | .takeEvent =>
    if s.loop = .select then
      s.events.recv.map (fun r => { s with loop := .handling r.1, events := r.2 })
    else none
  | .mainReceive =>
    if s.loop = .select then
      s.messages.recv.map (fun r =>
        { s with loop := .returned .message, messages := r.2 })
    else none
  | .handle =>
    match s.loop with
    | .handling e => some { s with loop := afterHandle e }
    | _ => none
  | .consume =>
    if s.loop = .consuming then
      match s.events.recv with
      | some r => some { s with loop := .handling r.1, events := r.2 }
      | none => some { s with loop := .flushing }
    else none
  | .flush ok =>
    if s.loop = .flushing then some { s with loop := afterFlush ok } else none
  | .close =>
    match s.loop with
    | .returned x => some { s with loop := .closed x }
    | _ => none
  | .tick =>
    if s.flush = .select then some { s with flush := .drawing } else none
  | .draw =>
    if s.flush = .drawing then some { s with flush := .select } else none
  | .flushReceive =>
    if s.flush = .select then
      s.messages.recv.map (fun r => { s with flush := .exited, messages := r.2 })
    else none
  | .resize =>
    if s.resizePending then
      (s.events.send .other).map (fun q =>
        { s with events := q, resizePending := false })
    else none
  | .pollEvent e =>
    -- the goroutine that polls is started by MainLoop, and never stopped
    if s.loop ≠ .notStarted then
      (s.events.send e).map (fun q => { s with events := q })
    else none

/-- The state `ParallelRun` leaves when it has started the view. -/
def start : UiState where
  stop := .waiting
  loop := .notStarted
  flush := .notSpawned
  messages := .empty
  events := .empty
  resizePending := true

end UiState

/-- **The machine of the live view.** -/
def ui : Machine UiState UiLabel := ⟨UiState.start, UiState.step⟩

namespace UiState

/-- **What a step can do**, one constructor per label. -/
inductive Step (s : UiState) : UiLabel → UiState → Prop
  | wait (hp : s.stop = .waiting) : Step s .wait { s with stop := .sendQuit1 }
  | sendQuit1 {m} (hp : s.stop = .sendQuit1) (hm : s.messages.send .quit1 = some m) :
    Step s .sendQuit1 { s with messages := m, stop := .sendQuit2 }
  | sendQuit2 {m} (hp : s.stop = .sendQuit2) (hm : s.messages.send .quit2 = some m) :
    Step s .sendQuit2 { s with messages := m, stop := .stopped }
  | merge (hp : s.stop = .stopped) : Step s .merge { s with stop := .merging }
  | start (hp : s.loop = .notStarted) :
    Step s .start { s with loop := .firstFlush, flush := .select }
  | firstFlush (ok) (hp : s.loop = .firstFlush) :
    Step s (.firstFlush ok) { s with loop := afterFlush ok }
  | takeEvent {e q} (hp : s.loop = .select) (he : s.events.recv = some (e, q)) :
    Step s .takeEvent { s with loop := .handling e, events := q }
  | mainReceive {a m} (hp : s.loop = .select) (hm : s.messages.recv = some (a, m)) :
    Step s .mainReceive { s with loop := .returned .message, messages := m }
  | handle {e} (hp : s.loop = .handling e) :
    Step s .handle { s with loop := afterHandle e }
  | consumeEvent {e q} (hp : s.loop = .consuming) (he : s.events.recv = some (e, q)) :
    Step s .consume { s with loop := .handling e, events := q }
  | consumeNone (hp : s.loop = .consuming) (he : s.events.recv = none) :
    Step s .consume { s with loop := .flushing }
  | flush (ok) (hp : s.loop = .flushing) :
    Step s (.flush ok) { s with loop := afterFlush ok }
  | close {x} (hp : s.loop = .returned x) : Step s .close { s with loop := .closed x }
  | tick (hp : s.flush = .select) : Step s .tick { s with flush := .drawing }
  | draw (hp : s.flush = .drawing) : Step s .draw { s with flush := .select }
  | flushReceive {a m} (hp : s.flush = .select) (hm : s.messages.recv = some (a, m)) :
    Step s .flushReceive { s with flush := .exited, messages := m }
  | resize {q} (hp : s.resizePending = true) (hq : s.events.send .other = some q) :
    Step s .resize { s with events := q, resizePending := false }
  | pollEvent {e q} (hp : s.loop ≠ .notStarted) (hq : s.events.send e = some q) :
    Step s (.pollEvent e) { s with events := q }

theorem ui_step (s : UiState) (l : UiLabel) : ui.step s l = s.step l := rfl

variable {s s' : UiState} {l : UiLabel}

/-- The step function takes no other steps. -/
theorem step_cases (h : ui.step s l = some s') : Step s l s' := by
  rw [ui_step] at h
  cases l with
  | wait =>
    simp only [step] at h
    split at h
    · obtain rfl := Option.some.inj h
      exact .wait ‹_›
    · cases h
  | sendQuit1 =>
    simp only [step] at h
    split at h
    · obtain ⟨r, hr, rfl⟩ := Option.map_eq_some_iff.mp h
      exact .sendQuit1 ‹_› hr
    · cases h
  | sendQuit2 =>
    simp only [step] at h
    split at h
    · obtain ⟨r, hr, rfl⟩ := Option.map_eq_some_iff.mp h
      exact .sendQuit2 ‹_› hr
    · cases h
  | merge =>
    simp only [step] at h
    split at h
    · obtain rfl := Option.some.inj h
      exact .merge ‹_›
    · cases h
  | start =>
    simp only [step] at h
    split at h
    · obtain rfl := Option.some.inj h
      exact .start ‹_›
    · cases h
  | firstFlush ok =>
    simp only [step] at h
    split at h
    · obtain rfl := Option.some.inj h
      exact .firstFlush ok ‹_›
    · cases h
  | takeEvent =>
    simp only [step] at h
    split at h
    · obtain ⟨r, hr, rfl⟩ := Option.map_eq_some_iff.mp h
      exact .takeEvent ‹_› hr
    · cases h
  | mainReceive =>
    simp only [step] at h
    split at h
    · obtain ⟨r, hr, rfl⟩ := Option.map_eq_some_iff.mp h
      exact .mainReceive ‹_› hr
    · cases h
  | handle =>
    simp only [step] at h
    split at h
    · obtain rfl := Option.some.inj h
      exact .handle ‹_›
    · cases h
  | consume =>
    simp only [step] at h
    split at h
    · split at h
      · obtain rfl := Option.some.inj h
        exact .consumeEvent ‹_› ‹_›
      · obtain rfl := Option.some.inj h
        exact .consumeNone ‹_› ‹_›
    · cases h
  | flush ok =>
    simp only [step] at h
    split at h
    · obtain rfl := Option.some.inj h
      exact .flush ok ‹_›
    · cases h
  | close =>
    simp only [step] at h
    split at h
    · obtain rfl := Option.some.inj h
      exact .close ‹_›
    · cases h
  | tick =>
    simp only [step] at h
    split at h
    · obtain rfl := Option.some.inj h
      exact .tick ‹_›
    · cases h
  | draw =>
    simp only [step] at h
    split at h
    · obtain rfl := Option.some.inj h
      exact .draw ‹_›
    · cases h
  | flushReceive =>
    simp only [step] at h
    split at h
    · obtain ⟨r, hr, rfl⟩ := Option.map_eq_some_iff.mp h
      exact .flushReceive ‹_› hr
    · cases h
  | resize =>
    simp only [step] at h
    split at h
    · obtain ⟨r, hr, rfl⟩ := Option.map_eq_some_iff.mp h
      exact .resize ‹_› hr
    · cases h
  | pollEvent e =>
    simp only [step] at h
    split at h
    · obtain ⟨r, hr, rfl⟩ := Option.map_eq_some_iff.mp h
      exact .pollEvent ‹_› hr
    · cases h

/-- The step function takes all of these steps. -/
theorem Step.step_eq (h : Step s l s') : ui.step s l = some s' := by
  rw [ui_step]
  cases h with
  | wait hp => exact if_pos hp
  | sendQuit1 hp hm => simp only [UiState.step, hp, hm, if_true, Option.map_some]
  | sendQuit2 hp hm => simp only [UiState.step, hp, hm, if_true, Option.map_some]
  | merge hp => exact if_pos hp
  | start hp => exact if_pos hp
  | firstFlush ok hp => exact if_pos hp
  | takeEvent hp he => simp only [UiState.step, hp, he, if_true, Option.map_some]
  | mainReceive hp hm => simp only [UiState.step, hp, hm, if_true, Option.map_some]
  | handle hp => simp only [UiState.step, hp]
  | consumeEvent hp he => simp only [UiState.step, hp, he, if_true]
  | consumeNone hp he => simp only [UiState.step, hp, he, if_true]
  | flush ok hp => exact if_pos hp
  | close hp => simp only [UiState.step, hp]
  | tick hp => exact if_pos hp
  | draw hp => exact if_pos hp
  | flushReceive hp hm => simp only [UiState.step, hp, hm, if_true, Option.map_some]
  | resize hp hq => simp only [UiState.step, hp, hq, if_true, Option.map_some]
  | pollEvent hp hq =>
    simp only [UiState.step, hq, Option.map_some]
    exact if_pos hp

end UiState

/-! ## The count of the messages -/

/-- How many messages `Stop` has sent. -/
def StopPc.sent : StopPc → ℕ
  | .waiting => 0
  | .sendQuit1 => 0
  | .sendQuit2 => 1
  | .stopped => 2
  | .merging => 2

/-- Why `MainLoop` returned, if it has. -/
def LoopPc.exit : LoopPc → Option LoopExit
  | .returned x => some x
  | .closed x => some x
  | _ => none

/-- How many messages `MainLoop` has received. -/
def LoopPc.took : LoopPc → ℕ
  | .returned .message => 1
  | .closed .message => 1
  | _ => 0

/-- How many messages the goroutine that redraws has received. -/
def FlushPc.took : FlushPc → ℕ
  | .exited => 1
  | _ => 0

/-- `MainLoop` has received a message exactly if it returned on one. -/
theorem LoopPc.took_eq (pc : LoopPc) :
    pc.took = if pc.exit = some .message then 1 else 0 := by
  cases pc with
  | returned x => cases x <;> rfl
  | closed x => cases x <;> rfl
  | _ => rfl

theorem LoopPc.took_le (pc : LoopPc) : pc.took ≤ 1 := by
  rw [took_eq]
  split <;> decide

theorem FlushPc.took_le (pc : FlushPc) : pc.took ≤ 1 := by
  cases pc <;> decide

namespace UiState

variable {s s' : UiState} {l : UiLabel}

/-- **The invariant of the live view.** -/
structure Inv (s : UiState) : Prop where
  /-- The goroutine that redraws is there once `Start` was scheduled. -/
  spawned : s.flush = .notSpawned ↔ s.loop = .notStarted
  /-- What was sent is buffered or was received. -/
  count : s.stop.sent = s.messages.buf.length + s.flush.took + s.loop.took

theorem inv_start : start.Inv := ⟨by decide, by decide⟩

@[simp] theorem took_afterFlush (ok : Bool) : (afterFlush ok).took = 0 := by
  cases ok <;> decide

@[simp] theorem afterFlush_ne_notStarted (ok : Bool) : afterFlush ok ≠ .notStarted := by
  cases ok <;> decide

@[simp] theorem took_afterHandle (e : UiEvent) : (afterHandle e).took = 0 := by
  rcases e with k | _ | _
  · cases k <;> decide
  · decide
  · decide

@[simp] theorem afterHandle_ne_notStarted (e : UiEvent) : afterHandle e ≠ .notStarted := by
  rcases e with k | _ | _
  · cases k <;> decide
  · decide
  · decide

/-- A message is received by the step that says so, and by no other. -/
theorem took_step (hi : s.Inv) (h : Step s l s') :
    s'.flush.took = s.flush.took + (if l = .flushReceive then 1 else 0)
      ∧ s'.loop.took = s.loop.took + (if l = .mainReceive then 1 else 0) := by
  cases h with
  | start hp =>
    -- the goroutine that redraws was not there yet, so it has received nothing
    have hf := hi.spawned.mpr hp
    simp [hp, hf, FlushPc.took, LoopPc.took]
  | firstFlush ok hp =>
    refine ⟨by simp, ?_⟩
    show (afterFlush ok).took = _
    rw [took_afterFlush]
    simp [hp, LoopPc.took]
  | handle hp =>
    rename_i e
    refine ⟨by simp, ?_⟩
    show (afterHandle e).took = _
    rw [took_afterHandle]
    simp [hp, LoopPc.took]
  | flush ok hp =>
    refine ⟨by simp, ?_⟩
    show (afterFlush ok).took = _
    rw [took_afterFlush]
    simp [hp, LoopPc.took]
  | close hp =>
    rename_i x
    cases x <;> simp [hp, LoopPc.took]
  | _ => simp [FlushPc.took, LoopPc.took, *]

/-- What is sent or received goes in or out of the buffer. -/
theorem buf_step (h : Step s l s') :
    s'.messages.buf.length + s.stop.sent + (if l = .flushReceive then 1 else 0)
        + (if l = .mainReceive then 1 else 0)
      = s.messages.buf.length + s'.stop.sent := by
  cases h with
  | sendQuit1 hp hm => simp [Chan.buf_of_send hm, hp, StopPc.sent]
  | sendQuit2 hp hm => simp [Chan.buf_of_send hm, hp, StopPc.sent]
  | mainReceive hp hm =>
    have hlen := congrArg List.length (Chan.buf_of_recv hm)
    rw [List.length_cons] at hlen
    simp only [reduceCtorEq, if_true, if_false]
    omega
  | flushReceive hp hm =>
    have hlen := congrArg List.length (Chan.buf_of_recv hm)
    rw [List.length_cons] at hlen
    simp only [reduceCtorEq, if_true, if_false]
    omega
  | wait hp => simp [hp, StopPc.sent]
  | merge hp => simp [hp, StopPc.sent]
  | _ => simp

/-- The goroutine that redraws is started by `Start`, and never goes back to
not being there. -/
theorem spawned_step (hi : s.Inv) (h : Step s l s') :
    s'.flush = .notSpawned ↔ s'.loop = .notStarted := by
  have hs := hi.spawned
  cases h <;> simp_all

/-- **The count is kept by every step.** -/
theorem Inv.step (hi : s.Inv) (h : ui.step s l = some s') : s'.Inv := by
  have hstep := step_cases h
  refine ⟨spawned_step hi hstep, ?_⟩
  obtain ⟨hflush, hloop⟩ := took_step hi hstep
  have hbuf := buf_step hstep
  have hcount := hi.count
  omega

theorem reachable_inv (h : ui.Reachable s) : s.Inv :=
  Machine.reachable_rec inv_start (fun _ _ _ hi h => Inv.step hi h) h

/-- Each loop has received as many messages as it made steps that receive. -/
theorem count_receives {ls : List UiLabel} (h : ui.run ls = some s) :
    ls.count .flushReceive = s.flush.took ∧ ls.count .mainReceive = s.loop.took := by
  refine (Machine.run_rec (P := fun ls s => s.Inv
    ∧ ls.count .flushReceive = s.flush.took ∧ ls.count .mainReceive = s.loop.took)
    ⟨inv_start, by decide, by decide⟩ (fun ls s l s' hp h => ?_) h).2
  obtain ⟨hi, hf, hm⟩ := hp
  obtain ⟨hflush, hloop⟩ := took_step hi (step_cases h)
  refine ⟨hi.step h, ?_, ?_⟩
  · rw [List.count_append, hf, hflush, List.count_singleton, beq_eq_decide, eq_comm]
    simp
  · rw [List.count_append, hm, hloop, List.count_singleton, beq_eq_decide, eq_comm]
    simp

/-! ## What is enabled -/

theorem enabled_of_step (h : Step s l s') : ui.Enabled s l := by
  unfold Machine.Enabled
  rw [h.step_eq]
  rfl

theorem enabled_mainReceive (hp : s.loop = .select) (hm : s.messages.buf ≠ []) :
    ui.Enabled s .mainReceive := by
  obtain ⟨a, m, hr⟩ := Chan.exists_recv hm
  exact enabled_of_step (.mainReceive hp hr)

theorem enabled_flushReceive (hp : s.flush = .select) (hm : s.messages.buf ≠ []) :
    ui.Enabled s .flushReceive := by
  obtain ⟨a, m, hr⟩ := Chan.exists_recv hm
  exact enabled_of_step (.flushReceive hp hr)

/-- `Stop` has returned. -/
def Stopped (s : UiState) : Prop := s.stop = .stopped ∨ s.stop = .merging

instance : DecidablePred Stopped := fun _ => inferInstanceAs (Decidable (_ ∨ _))

/-- What `Stop` has done stays done. -/
theorem Stopped.runFrom (hs : s.Stopped) {ls : List UiLabel}
    (h : ui.runFrom s ls = some s') : s'.Stopped := by
  refine Machine.runFrom_rec (P := Stopped) (fun s l s' hs h => ?_) hs h
  have hstep := step_cases h
  unfold Stopped at hs ⊢
  cases hstep <;> simp_all

/-- Once `Stop` has returned, two messages are buffered or were received. -/
theorem Inv.count_stopped (hi : s.Inv) (hs : s.Stopped) :
    s.messages.buf.length + s.flush.took + s.loop.took = 2 := by
  have hc := hi.count
  rcases hs with hs | hs <;>
  · rw [hs] at hc
    exact hc.symm

/-- A loop that did not take a message leaves one for the other, and one in
the buffer. -/
theorem Inv.buf_ne_nil (hi : s.Inv) (hs : s.Stopped)
    (h : s.flush.took = 0 ∨ s.loop.took = 0) : s.messages.buf ≠ [] := by
  intro hnil
  have hc := hi.count_stopped hs
  have hf := s.flush.took_le
  have hl := s.loop.took_le
  rw [hnil, List.length_nil] at hc
  omega

/-- **`Stop` is never stuck**: until it has returned, a step is enabled that
does not come from outside. -/
theorem Inv.exists_enabled (hi : s.Inv) (hs : ¬ s.Stopped) :
    ∃ l : UiLabel, l.party ≠ .outside ∧ ui.Enabled s l := by
  have hc := hi.count
  cases hp : s.stop with
  | waiting => exact ⟨.wait, by decide, enabled_of_step (.wait hp)⟩
  | sendQuit1 =>
    rw [hp, StopPc.sent] at hc
    obtain ⟨m, hm⟩ := Chan.exists_send (show s.messages.buf.length < 1 by omega) .quit1
    exact ⟨.sendQuit1, by decide, enabled_of_step (.sendQuit1 hp hm)⟩
  | sendQuit2 =>
    by_cases hroom : s.messages.buf.length < 1
    · obtain ⟨m, hm⟩ := Chan.exists_send hroom .quit2
      exact ⟨.sendQuit2, by decide, enabled_of_step (.sendQuit2 hp hm)⟩
    · -- the first message is still there, so the goroutine that redraws has
      -- not left, and will take it
      have hbuf : s.messages.buf ≠ [] := by
        intro hnil
        rw [hnil] at hroom
        exact hroom Nat.zero_lt_one
      cases hf : s.flush with
      | notSpawned =>
        exact ⟨.start, by decide, enabled_of_step (.start (hi.spawned.mp hf))⟩
      | select => exact ⟨.flushReceive, by decide, enabled_flushReceive hf hbuf⟩
      | drawing => exact ⟨.draw, by decide, enabled_of_step (.draw hf)⟩
      | exited =>
        rw [hp, hf, StopPc.sent, FlushPc.took] at hc
        omega
  | stopped => exact absurd (Or.inl hp) hs
  | merging => exact absurd (Or.inr hp) hs

/-! ## How the loops end -/

/-- `MainLoop` is working off events. -/
def HandlingEvents (s : UiState) : Prop :=
  s.loop = .consuming ∨ ∃ e, s.loop = .handling e

/-- `MainLoop` has returned. -/
def Exited (s : UiState) : Prop := ∃ x, s.loop.exit = some x

/-- Neither loop can receive a message, now or at any later time. -/
def NeverReceives (s : UiState) : Prop :=
  ∀ ls s', ui.runFrom s ls = some s' →
    ¬ ui.Enabled s' .flushReceive ∧ ¬ ui.Enabled s' .mainReceive

theorem NeverReceives.now (hn : s.NeverReceives) :
    ¬ ui.Enabled s .flushReceive ∧ ¬ ui.Enabled s .mainReceive :=
  hn [] s rfl

theorem NeverReceives.next (hn : s.NeverReceives) (h : Step s l s') :
    ¬ ui.Enabled s' .flushReceive ∧ ¬ ui.Enabled s' .mainReceive := by
  refine hn [l] s' ?_
  rw [Machine.runFrom_cons, h.step_eq]
  rfl

theorem NeverReceives.runFrom (hn : s.NeverReceives) {ls : List UiLabel}
    (h : ui.runFrom s ls = some s') : s'.NeverReceives :=
  fun ls' s'' h' => hn (ls ++ ls') s'' (Machine.runFrom_trans h h')

/-- Where neither loop can ever receive again, the goroutine that redraws has
left. -/
theorem NeverReceives.flush_exited (hn : s.NeverReceives) (hi : s.Inv)
    (hs : s.Stopped) : s.flush = .exited := by
  have hbuf : s.flush ≠ .exited → s.messages.buf ≠ [] := by
    intro hne
    refine hi.buf_ne_nil hs (Or.inl ?_)
    cases hf : s.flush <;> first | rfl | exact absurd hf hne
  cases hf : s.flush with
  | notSpawned =>
    have h := Step.start (hi.spawned.mp hf)
    exact ((hn.next h).1 (enabled_flushReceive rfl (hbuf (by simp [hf])))).elim
  | select => exact absurd (enabled_flushReceive hf (hbuf (by simp [hf]))) hn.now.1
  | drawing =>
    have h := Step.draw hf
    exact ((hn.next h).1 (enabled_flushReceive rfl (hbuf (by simp [hf])))).elim
  | exited => rfl

/-- Where neither loop can ever receive again, `MainLoop` has returned, or
is working off events. -/
theorem NeverReceives.exited (hn : s.NeverReceives) (hi : s.Inv)
    (hs : s.Stopped) : s.Exited ∨ s.HandlingEvents := by
  have hbuf : s.loop.exit = none → s.messages.buf ≠ [] := by
    intro he
    refine hi.buf_ne_nil hs (Or.inr ?_)
    rw [LoopPc.took_eq, he]
    rfl
  cases hl : s.loop with
  | notStarted =>
    have hf := hn.flush_exited hi hs
    rw [hi.spawned.mpr hl] at hf
    cases hf
  | firstFlush =>
    have h := Step.firstFlush true hl
    exact ((hn.next h).2 (enabled_mainReceive rfl (hbuf (by rw [hl]; rfl)))).elim
  | select => exact absurd (enabled_mainReceive hl (hbuf (by rw [hl]; rfl))) hn.now.2
  | handling e => exact Or.inr (Or.inr ⟨e, hl⟩)
  | consuming => exact Or.inr (Or.inl hl)
  | flushing =>
    have h := Step.flush true hl
    exact ((hn.next h).2 (enabled_mainReceive rfl (hbuf (by rw [hl]; rfl)))).elim
  | returned x => exact Or.inl ⟨x, by rw [hl]; rfl⟩
  | closed x => exact Or.inl ⟨x, by rw [hl]; rfl⟩

/-- **Nothing is in progress**: `Start` has been scheduled, `MainLoop` is at
its select or has returned, and nothing is being drawn. -/
def AtRest (s : UiState) : Prop :=
  (s.loop = .select ∨ s.Exited) ∧ s.flush ≠ .drawing

/-- What is left in the channel once `MainLoop` and the goroutine that
redraws are gone. -/
theorem Inv.buf_of_exited (hi : s.Inv) (hs : s.Stopped) (hf : s.flush = .exited)
    (hx : s.loop.exit = some .message) : s.messages.buf = [] := by
  have hc := hi.count_stopped hs
  rw [hf, LoopPc.took_eq, if_pos hx, FlushPc.took] at hc
  exact List.eq_nil_of_length_eq_zero (by omega)

/-- Where nothing is in progress and no message can be received, both loops
have ended. -/
theorem Inv.ended (hi : s.Inv) (hs : s.Stopped) (hr : s.AtRest)
    (hf : ¬ ui.Enabled s .flushReceive) (hm : ¬ ui.Enabled s .mainReceive) :
    s.flush = .exited ∧ s.Exited := by
  obtain ⟨hloop, hdraw⟩ := hr
  have hexit : s.Exited := by
    rcases hloop with hl | hx
    · refine absurd (enabled_mainReceive hl (hi.buf_ne_nil hs (Or.inr ?_))) hm
      rw [hl]
      rfl
    · exact hx
  refine ⟨?_, hexit⟩
  have hbuf : s.flush.took = 0 → s.messages.buf ≠ [] :=
    fun ht => hi.buf_ne_nil hs (Or.inl ht)
  cases hp : s.flush with
  | notSpawned =>
    obtain ⟨x, hx⟩ := hexit
    rw [hi.spawned.mp hp] at hx
    cases hx
  | select => exact absurd (enabled_flushReceive hp (hbuf (by rw [hp]; rfl))) hf
  | drawing => exact absurd hp hdraw
  | exited => rfl

end UiState

/-- **`Stop` never deadlocks, and over-delivers to no one.** In every run
each of the two loops receives at most one message. Until `Stop` has
returned, a step is enabled that is not a key or a tick. Once it has
returned, and nothing is in progress and no message can be received, the
goroutine that redraws has left and `MainLoop` has returned, with at most
one message left in the channel, and none if `MainLoop` returned on one.
The same is so where no message can be received at any later time either,
once `MainLoop` is through with its events. -/
theorem stop_never_deadlocks :
    (∀ (ls : List UiLabel) (s : UiState), ui.run ls = some s →
      ls.count .flushReceive ≤ 1 ∧ ls.count .mainReceive ≤ 1)
    ∧ (∀ s : UiState, ui.Reachable s → ¬ s.Stopped →
      ∃ l : UiLabel, l.party ≠ .outside ∧ ui.Enabled s l)
    ∧ (∀ s : UiState, ui.Reachable s → s.Stopped → s.AtRest →
      ¬ ui.Enabled s .flushReceive → ¬ ui.Enabled s .mainReceive →
      s.flush = .exited ∧ s.Exited ∧ s.messages.buf.length ≤ 1
        ∧ (s.loop.exit = some .message → s.messages.buf = []))
    ∧ (∀ s : UiState, ui.Reachable s → s.Stopped → s.NeverReceives →
      s.flush = .exited ∧ (s.Exited ∨ s.HandlingEvents)
        ∧ (∀ ls s', ui.runFrom s ls = some s' → ¬ s'.HandlingEvents → s'.Exited)
        ∧ s.messages.buf.length ≤ 1
        ∧ (s.loop.exit = some .message → s.messages.buf = [])) := by
  refine ⟨fun ls s h => ?_, fun s hr hs => ?_, fun s hr hs hrest hf hm => ?_,
    fun s hr hs hn => ?_⟩
  · obtain ⟨hf, hm⟩ := UiState.count_receives h
    rw [hf, hm]
    exact ⟨s.flush.took_le, s.loop.took_le⟩
  · exact (UiState.reachable_inv hr).exists_enabled hs
  · have hi := UiState.reachable_inv hr
    obtain ⟨hflush, hexit⟩ := hi.ended hs hrest hf hm
    exact ⟨hflush, hexit, s.messages.length_le, hi.buf_of_exited hs hflush⟩
  · have hi := UiState.reachable_inv hr
    have hflush := hn.flush_exited hi hs
    refine ⟨hflush, hn.exited hi hs, fun ls s' hrun hno => ?_,
      s.messages.length_le, hi.buf_of_exited hs hflush⟩
    have hi' := UiState.reachable_inv (hr.runFrom hrun)
    exact ((hn.runFrom hrun).exited hi' (hs.runFrom hrun)).resolve_right hno

/-- A batch that ends while nobody touches the keys: each loop gets one of
the messages. -/
theorem stop_never_deadlocks_both_receive :
    ∃ s : UiState,
      ui.run [.wait, .start, .firstFlush true, .sendQuit1, .flushReceive, .sendQuit2,
        .mainReceive] = some s
      ∧ s.flush = .exited ∧ s.Exited ∧ s.messages.buf = [] := by
  refine ⟨⟨.stopped, .returned .message, .exited, .empty, .empty, true⟩, rfl, ?_⟩
  obtain ⟨hf, hx, -, hbuf⟩ := stop_never_deadlocks.2.2.1
    ⟨.stopped, .returned .message, .exited, .empty, .empty, true⟩
    ⟨[.wait, .start, .firstFlush true, .sendQuit1, .flushReceive, .sendQuit2,
      .mainReceive], rfl⟩
    (Or.inl rfl) ⟨Or.inr ⟨.message, rfl⟩, by decide⟩ (by decide) (by decide)
  exact ⟨hf, hx, hbuf rfl⟩

namespace UiState

variable {s s' : UiState} {l : UiLabel}

/-- **Ctrl-C has been taken**, and the goroutine that redraws is gone:
`MainLoop` is at the key, or has returned on it. -/
def Quitting (s : UiState) : Prop :=
  s.flush = .exited ∧ (s.loop = .handling (.key .ctrlC) ∨ s.loop.exit = some .quit)

theorem Quitting.step (hq : s.Quitting) (h : Step s l s') : s'.Quitting := by
  obtain ⟨hf, hl⟩ := hq
  unfold Quitting
  cases h with
  | @handle e hp =>
    obtain rfl : e = .key .ctrlC := by simpa [hp, LoopPc.exit] using hl
    exact ⟨hf, Or.inr rfl⟩
  | @close x hp =>
    obtain rfl : x = .quit := by simpa [hp, LoopPc.exit] using hl
    exact ⟨hf, Or.inr rfl⟩
  | _ => simp_all [LoopPc.exit]

theorem Quitting.not_enabled (hq : s.Quitting) :
    ¬ ui.Enabled s .flushReceive ∧ ¬ ui.Enabled s .mainReceive := by
  obtain ⟨hf, hl⟩ := hq
  refine ⟨fun hen => ?_, fun hen => ?_⟩
  · obtain ⟨s', h⟩ := Option.isSome_iff_exists.mp hen
    cases step_cases h with
    | flushReceive hp hm => simp [hf] at hp
  · obtain ⟨s', h⟩ := Option.isSome_iff_exists.mp hen
    cases step_cases h with
    | mainReceive hp hm => simp [hp, LoopPc.exit] at hl

/-- On its way out `MainLoop` receives nothing any more. -/
theorem Quitting.neverReceives (hq : s.Quitting) : s.NeverReceives := by
  intro ls s' h
  have hq' : s'.Quitting :=
    Machine.runFrom_rec (P := Quitting) (fun _ _ _ hq h => hq.step (step_cases h)) hq h
  exact hq'.not_enabled

end UiState

/-- **`MainLoop` may still be at its events**: where Ctrl-C is taken before
`Stop` is called, `Stop` returns and no message can be received any more
while `MainLoop` is still at the key. -/
theorem stop_returns_before_main_loop :
    ∃ s : UiState,
      ui.run [.wait, .start, .firstFlush true, .pollEvent (.key .ctrlC), .takeEvent, .sendQuit1,
        .flushReceive, .sendQuit2] = some s
      ∧ s.Stopped ∧ s.NeverReceives ∧ ¬ s.Exited := by
  refine ⟨⟨.stopped, .handling (.key .ctrlC), .exited, ⟨[.quit2], by decide⟩, .empty, true⟩,
    by decide, Or.inl rfl, UiState.Quitting.neverReceives ⟨rfl, Or.inl rfl⟩, ?_⟩
  rintro ⟨x, hx⟩
  cases hx

/-! ## Printing the results -/

namespace UiState

variable {s s' : UiState} {l : UiLabel}

/-- The deferred `Close` has run. -/
def Closed (s : UiState) : Prop := ∃ x, s.loop = .closed x

/-- The goroutine of `Start` has no step to take. -/
def StartIdle (s : UiState) : Prop :=
  ∀ l : UiLabel, l.party = .start → ¬ ui.Enabled s l

/-- The steps of `Start`. -/
def startLabels : List UiLabel :=
  [.start, .firstFlush true, .firstFlush false, .takeEvent, .mainReceive, .handle,
    .consume, .flush true, .flush false, .close]

theorem mem_startLabels (h : l.party = .start) : l ∈ startLabels := by
  cases l with
  | firstFlush ok => cases ok <;> decide
  | flush ok => cases ok <;> decide
  | pollEvent e => cases h
  | _ => first | decide | cases h

instance : DecidablePred StartIdle := fun s =>
  decidable_of_iff (∀ l ∈ startLabels, l.party = .start → ¬ ui.Enabled s l)
    ⟨fun h l hl => h l (mem_startLabels hl) hl, fun h l _ hl => h l hl⟩

theorem Closed.step (hc : s.Closed) (h : Step s l s') : s'.Closed := by
  obtain ⟨x, hx⟩ := hc
  refine ⟨x, ?_⟩
  cases h <;> simp_all

/-- Past `Close`, `Start` has nothing to do. -/
theorem Closed.startIdle (hc : s.Closed) : s.StartIdle := by
  obtain ⟨x, hx⟩ := hc
  intro l hl hen
  obtain ⟨s', h⟩ := Option.isSome_iff_exists.mp hen
  cases step_cases h <;> simp_all [UiLabel.party]

/-- **Once `Stop` has returned, `Start` has nothing to do only past
`Close`**: at its select there is a message for it. -/
theorem Inv.closed_of_startIdle (hi : s.Inv) (hs : s.Stopped) (hidle : s.StartIdle) :
    s.Closed := by
  cases hl : s.loop with
  | notStarted => exact absurd (enabled_of_step (.start hl)) (hidle .start rfl)
  | firstFlush =>
    exact absurd (enabled_of_step (.firstFlush true hl)) (hidle (.firstFlush true) rfl)
  | select =>
    have hbuf := hi.buf_ne_nil hs (Or.inr (by rw [hl]; rfl))
    exact absurd (enabled_mainReceive hl hbuf) (hidle .mainReceive rfl)
  | handling e => exact absurd (enabled_of_step (.handle hl)) (hidle .handle rfl)
  | consuming =>
    cases he : s.events.recv with
    | none => exact absurd (enabled_of_step (.consumeNone hl he)) (hidle .consume rfl)
    | some r => exact absurd (enabled_of_step (.consumeEvent hl he)) (hidle .consume rfl)
  | flushing => exact absurd (enabled_of_step (.flush true hl)) (hidle (.flush true) rfl)
  | returned x => exact absurd (enabled_of_step (.close hl)) (hidle .close rfl)
  | closed x => exact ⟨x, hl⟩

end UiState

/-- **When the terminal is released before the results are printed.** In
every run in which the merge begins only where `Start` has no step to take,
the terminal has been closed when the merge has begun; and where the merge
can begin, the terminal has been closed exactly when `Start` has no step to
take. -/
theorem merge_after_close (ls : List UiLabel) (s : UiState) (hrun : ui.run ls = some s) :
    (ui.Meets (fun s l => l = .merge → s.StartIdle) ui.start ls →
      s.stop = .merging → s.Closed)
    ∧ (ui.Enabled s .merge → (s.Closed ↔ s.StartIdle)) := by
  refine ⟨fun hmeets => ?_, fun hen => ?_⟩
  · refine (Machine.meets_rec (P := fun s => s.Inv ∧ (s.stop = .merging → s.Closed))
      ⟨UiState.inv_start, fun h => by cases h⟩ (fun s l s' hp hc h => ?_) hrun hmeets).2
    obtain ⟨hi, hclosed⟩ := hp
    refine ⟨hi.step h, fun hm => ?_⟩
    have hstep := UiState.step_cases h
    refine UiState.Closed.step ?_ hstep
    cases hstep with
    | merge hp => exact hi.closed_of_startIdle (Or.inl hp) (hc rfl)
    | wait hp => cases hm
    | sendQuit1 hp _ => cases hm
    | sendQuit2 hp _ => cases hm
    | _ => exact hclosed hm
  · obtain ⟨s', h⟩ := Option.isSome_iff_exists.mp hen
    cases UiState.step_cases h with
    | merge hp =>
      exact ⟨UiState.Closed.startIdle,
        (UiState.reachable_inv ⟨ls, hrun⟩).closed_of_startIdle (Or.inl hp)⟩

/-- The first redraw fails, so `MainLoop` returns at once, and the merge
begins when the terminal has been closed. -/
theorem merge_after_close_failed_flush :
    ∃ s : UiState,
      ui.run [.wait, .start, .firstFlush false, .close, .sendQuit1, .flushReceive,
        .sendQuit2, .merge] = some s ∧ s.Closed := by
  refine ⟨_, rfl, (merge_after_close [.wait, .start, .firstFlush false, .close,
    .sendQuit1, .flushReceive, .sendQuit2, .merge] _ rfl).1 (by decide) rfl⟩

/-- The goroutine that redraws takes the first message, the second one is
buffered, and the merge begins while `MainLoop` still has the terminal. -/
theorem merge_before_close :
    ∃ s : UiState,
      ui.run [.wait, .start, .firstFlush true, .sendQuit1, .flushReceive, .sendQuit2,
        .merge] = some s
      ∧ s.stop = .merging ∧ s.loop = .select :=
  ⟨_, rfl, rfl, rfl⟩

/-! ## Drawing on a released terminal -/

namespace UiState

variable {s s' : UiState} {l : UiLabel}

/-- The goroutine that redraws does not come back. -/
theorem flush_exited_step (hi : s.Inv) (hf : s.flush = .exited) (h : Step s l s') :
    s'.flush = .exited := by
  cases h with
  | start hp =>
    rw [hi.spawned.mpr hp] at hf
    cases hf
  | _ => simp_all

/-- The terminal is closed by the step that says so. -/
theorem Closed.of_step (hc : s'.Closed) (h : Step s l s') :
    s.Closed ∨ l = .close := by
  obtain ⟨x, hx⟩ := hc
  cases h with
  | firstFlush ok hp => cases ok <;> cases hx
  | flush ok hp => cases ok <;> cases hx
  | @handle e hp =>
    rcases e with k | _ | _
    · cases k <;> cases hx
    · cases hx
    · cases hx
  | close hp => exact Or.inr rfl
  | _ => first | exact Or.inl ⟨x, hx⟩ | cases hx

theorem not_enabled_tick (hf : s.flush ≠ .select) : ¬ ui.Enabled s .tick := by
  intro hen
  obtain ⟨s', h⟩ := Option.isSome_iff_exists.mp hen
  cases step_cases h with
  | tick hp => exact hf hp

theorem not_enabled_draw (hf : s.flush ≠ .drawing) : ¬ ui.Enabled s .draw := by
  intro hen
  obtain ⟨s', h⟩ := Option.isSome_iff_exists.mp hen
  cases step_cases h with
  | draw hp => exact hf hp

/-- A goroutine that has left draws nothing. -/
theorem draw_notMem_of_exited (hi : s.Inv) (hf : s.flush = .exited)
    {ls : List UiLabel} (h : ui.runFrom s ls = some s') : .draw ∉ ls :=
  Machine.notMem_of_runFrom (P := fun s => s.Inv ∧ s.flush = .exited)
    (fun _ _ _ hp h => ⟨hp.1.step h, flush_exited_step hp.1 hp.2 (step_cases h)⟩)
    (fun _ hp => not_enabled_draw (by rw [hp.2]; decide)) ⟨hi, hf⟩ h

/-- A goroutine that is there can draw. -/
theorem exists_draw (hf : s.flush = .select ∨ s.flush = .drawing) :
    ∃ ls s', ui.runFrom s ls = some s' ∧ .draw ∈ ls := by
  have hdraw : ∀ s : UiState, s.flush = .drawing →
      ui.runFrom s [.draw] = some { s with flush := .select } := by
    intro s hs
    rw [Machine.runFrom_cons, (Step.draw hs).step_eq]
    rfl
  rcases hf with hf | hf
  · have htick : ui.runFrom s [.tick, .draw]
        = some { s with flush := .select } := by
      rw [Machine.runFrom_cons, (Step.tick hf).step_eq]
      exact hdraw { s with flush := .drawing } rfl
    exact ⟨_, _, htick, by decide⟩
  · exact ⟨[.draw], _, hdraw s hf, by decide⟩

end UiState

/-- **When nothing is drawn on a released terminal.** In every run in which
`Close` is executed only where the goroutine that redraws has left, no tick
is taken and nothing is drawn once `Close` has been executed; and wherever
`Close` is executed, nothing is ever drawn afterwards exactly when that
goroutine has left. -/
theorem no_draw_after_close (ls : List UiLabel) (s : UiState) (hrun : ui.run ls = some s) :
    (ui.Meets (fun s l => l = .close → s.flush = .exited) ui.start ls →
      s.Closed → ¬ ui.Enabled s .tick ∧ ¬ ui.Enabled s .draw)
    ∧ ∀ s', ui.step s .close = some s' →
      ((∀ ls' s'', ui.runFrom s' ls' = some s'' → .draw ∉ ls')
        ↔ s.flush = .exited) := by
  refine ⟨fun hmeets hclosed => ?_, fun s' h => ?_⟩
  · have hexit : s.flush = .exited := by
      refine (Machine.meets_rec (P := fun s => s.Inv ∧ (s.Closed → s.flush = .exited))
        ⟨UiState.inv_start, fun h => by obtain ⟨x, hx⟩ := h; cases hx⟩
        (fun s l s' hp hc h => ?_) hrun hmeets).2 hclosed
      obtain ⟨hi, hex⟩ := hp
      refine ⟨hi.step h, fun ⟨x, hx⟩ => ?_⟩
      have hstep := UiState.step_cases h
      refine UiState.flush_exited_step hi ?_ hstep
      rcases UiState.Closed.of_step ⟨x, hx⟩ hstep with hcl | rfl
      · exact hex hcl
      · exact hc rfl
    exact ⟨UiState.not_enabled_tick (by rw [hexit]; decide),
      UiState.not_enabled_draw (by rw [hexit]; decide)⟩
  · have hi := UiState.reachable_inv ⟨ls, hrun⟩
    cases UiState.step_cases h with
    | @close x hp =>
      constructor
      · intro hnever
        have hgone : ¬ (s.flush = .select ∨ s.flush = .drawing) := by
          intro hf
          obtain ⟨ls, s'', hrun, hmem⟩ := UiState.exists_draw (s := { s with
            loop := .closed x }) hf
          exact hnever ls s'' hrun hmem
        cases hf : s.flush with
        | notSpawned =>
          rw [hi.spawned.mp hf] at hp
          cases hp
        | select => exact absurd (Or.inl hf) hgone
        | drawing => exact absurd (Or.inr hf) hgone
        | exited => rfl
      · intro hf ls s'' hrun
        exact UiState.draw_notMem_of_exited (hi.step h) hf hrun

/-- `MainLoop` and the goroutine that redraws get a message each, and then
the terminal is closed. -/
theorem no_draw_after_close_both_receive :
    ∃ s : UiState,
      ui.run [.wait, .start, .firstFlush true, .sendQuit1, .flushReceive, .sendQuit2,
        .mainReceive, .close] = some s
      ∧ ¬ ui.Enabled s .tick ∧ ¬ ui.Enabled s .draw :=
  ⟨_, rfl, (no_draw_after_close [.wait, .start, .firstFlush true, .sendQuit1,
    .flushReceive, .sendQuit2, .mainReceive, .close] _ rfl).1 (by decide) ⟨.message, rfl⟩⟩

/-- Ctrl-C makes `MainLoop` return, the terminal is closed, and on the next
tick the view is drawn. -/
theorem draw_after_close :
    ∃ s s' : UiState,
      ui.run [.start, .firstFlush true, .pollEvent (.key .ctrlC), .takeEvent, .handle,
        .close] = some s
      ∧ s.Closed ∧ ui.runFrom s [.tick, .draw] = some s' :=
  ⟨_, _, rfl, ⟨.quit, rfl⟩, rfl⟩
