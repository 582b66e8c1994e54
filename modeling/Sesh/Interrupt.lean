import Sesh.Chan
import Sesh.ParallelRun

/-!
# Interrupts and the directories of the batches

Each call of `ParallelRun` makes a directory, registers a channel of capacity
one for interrupts, and starts a handler that waits on it: on an interrupt
the handler removes the directory and ends the process. A call that comes to
its end unregisters the channel and removes the directory itself, in a
deferred function (`util.go`).

The machine `process` is that protocol around the machine of a batch, for any
number of calls one after the other. An interrupt goes to the channel that is
registered, and is dropped where that is full; without one it ends the
process at once. The handlers of earlier calls are never stopped, and stay
part of the process. A removal of a directory is one step, and its files are
not followed: whether they can still be created or read changes nothing in
the steps a batch takes.

The directories are not always removed. Between `Mkdir` and `Notify`, and
again between `Stop` and `RemoveAll`, a directory is there and no channel is
registered (`leak_of_interrupt`); and an interrupt that the handler of one
call is slow to take ends the process in the middle of the next call, whose
directory that handler does not know (`leak_of_pending`). Where neither
happens (`ProcState.Quiet`), no directory survives (`tmpdir_removed`).
-/

/-- Where the handler of a call stands: not started yet, at its receive,
before the removal, or before the exit. -/
inductive HandlerPc
  | notStarted
  | waiting
  | removing
  | exiting
  deriving DecidableEq, Repr

/-- **The signal channel of a call and its handler.** -/
structure Listener where
  /-- The directory the handler removes. -/
  dir : GoString
  /-- `intqueue`. -/
  intqueue : Chan Unit 1
  /-- Where the handler stands. -/
  pc : HandlerPc
  deriving DecidableEq

/-- A handler that waits and has nothing to receive. -/
def Listener.Idle (L : Listener) : Prop := L.intqueue.buf = [] ∧ L.pc = .waiting

instance (L : Listener) : Decidable L.Idle :=
  inferInstanceAs (Decidable (_ ∧ _))

/-- A handler that is past its receive is not idle. -/
theorem Listener.not_idle_of_pc {L : Listener} (h : L.pc ≠ .waiting) : ¬ L.Idle :=
  fun hidle => h hidle.2

/-- A handler that has something to receive is not idle. -/
theorem Listener.not_idle_of_recv {L : Listener} {r : Unit × Chan Unit 1}
    (h : L.intqueue.recv = some r) : ¬ L.Idle := by
  intro hidle
  have hbuf := Chan.buf_of_recv h
  rw [hidle.1] at hbuf
  cases hbuf

/-- The runtime sends a signal without waiting: a full channel drops it. -/
def Listener.notify (L : Listener) : Listener :=
  { L with intqueue := (L.intqueue.send ()).getD L.intqueue }

/-- Where the goroutine that calls `ParallelRun` stands: outside of a call;
or, in a call, before `Mkdir`, before `Notify`, before the handler is
started, in the batch itself, or between the two deferred calls. -/
inductive CallPc
  | returned
  | mkdir (b : BatchArgs)
  | notify (b : BatchArgs)
  | spawn (b : BatchArgs)
  | body (b : BatchArgs) (s : BatchState)
  | removeAll (b : BatchArgs)

/-- The directory that the call has made, if it is past `Mkdir`. -/
def CallPc.dir : CallPc → Option GoString
  | .returned => none
  | .mkdir _ => none
  | .notify b => some b.dir
  | .spawn b => some b.dir
  | .body b _ => some b.dir
  | .removeAll b => some b.dir

/-- The directory of the call whose channel is registered, if it is between
`Notify` and `Stop`. -/
def CallPc.listens : CallPc → Option GoString
  | .spawn b => some b.dir
  | .body b _ => some b.dir
  | _ => none

theorem CallPc.dir_of_listens {pc : CallPc} {d : GoString} (h : pc.listens = some d) :
    pc.dir = some d := by
  cases pc with
  | spawn b => exact h
  | body b t => exact h
  | _ => cases h

/-- The state of the process. -/
structure ProcState where
  /-- Where the calls of `ParallelRun` stand. -/
  pc : CallPc
  /-- The directories made by the calls that are still present. -/
  dirs : List GoString
  /-- The channels of the calls so far with their handlers, the newest
  first. -/
  listeners : List Listener
  /-- Whether the newest channel is registered; no other one is. -/
  registered : Bool
  /-- Whether the process has ended. -/
  ended : Bool

/-- The steps: those of the calls, of the handlers (by their place in the
list), and the arrival of an interrupt. -/
inductive ProcLabel
  | call (b : BatchArgs)
  | mkdir (ok : Bool)
  | notify
  | spawn
  | batch (l : BatchLabel)
  | stop
  | removeAll
  | interrupt
  | take (i : ℕ)
  | handlerRemove (i : ℕ)
  | exit (i : ℕ)

namespace ProcState

/-- The directories left by `os.RemoveAll`. -/
def removeDir (s : ProcState) (d : GoString) : List GoString :=
  s.dirs.filter (fun d' => d' ≠ d)

/-- What a step does while the process is there. -/
def act (s : ProcState) : ProcLabel → Option ProcState
  | .call b =>
    match s.pc with
    | .returned => some { s with pc := .mkdir b }
    | _ => none
  | .mkdir ok =>
    match s.pc with
    | .mkdir b =>
      if ok then some { s with dirs := b.dir :: s.dirs, pc := .notify b }
      else some { s with pc := .returned }
    | _ => none
  | .notify =>
    match s.pc with
    | .notify b =>
      some { s with
        listeners := ⟨b.dir, .empty, .notStarted⟩ :: s.listeners
        registered := true
        pc := .spawn b }
    | _ => none
  | .spawn =>
    match s.pc, s.listeners with
    | .spawn b, L :: Ls =>
      some { s with
        listeners := { L with pc := .waiting } :: Ls
        pc := .body b BatchArgs.start }
    | _, _ => none
  | .batch l =>
    match s.pc with
    | .body b t => (b.step t l).map (fun t' => { s with pc := .body b t' })
    | _ => none
  | .stop =>
    match s.pc with
    | .body b t =>
      if t.pc = .returned then some { s with registered := false, pc := .removeAll b }
      else none
    | _ => none
  | .removeAll =>
    match s.pc with
    | .removeAll b => some { s with dirs := s.removeDir b.dir, pc := .returned }
    | _ => none
  | .interrupt =>
    if s.registered then
      match s.listeners with
      | L :: Ls => some { s with listeners := L.notify :: Ls }
      | [] => none
    else some { s with ended := true }
  | .take i =>
    match s.listeners[i]? with
    | some L =>
      if L.pc = .waiting then
        L.intqueue.recv.map (fun r =>
          { s with listeners := s.listeners.set i { L with intqueue := r.2, pc := .removing } })
      else none
    | none => none
  | .handlerRemove i =>
    match s.listeners[i]? with
    | some L =>
      if L.pc = .removing then
        some { s with
          dirs := s.removeDir L.dir
          listeners := s.listeners.set i { L with pc := .exiting } }
      else none
    | none => none
  | .exit i =>
    match s.listeners[i]? with
    | some L => if L.pc = .exiting then some { s with ended := true } else none
    | none => none

/-- What a step does: nothing is done once the process has ended. -/
def step (s : ProcState) (l : ProcLabel) : Option ProcState :=
  if s.ended then none else s.act l

/-- The state before the first call. -/
def start : ProcState where
  pc := .returned
  dirs := []
  listeners := []
  registered := false
  ended := false

end ProcState

/-- **The machine of the calls of `ParallelRun` under interrupts.** -/
def process : Machine ProcState ProcLabel := ⟨ProcState.start, ProcState.step⟩

namespace ProcState

/-- **What a step can do**, one constructor per label and outcome. -/
inductive Step (s : ProcState) : ProcLabel → ProcState → Prop
  | call {b} (hp : s.pc = .returned) : Step s (.call b) { s with pc := .mkdir b }
  | mkdirOk {b} (hp : s.pc = .mkdir b) :
    Step s (.mkdir true) { s with dirs := b.dir :: s.dirs, pc := .notify b }
  | mkdirFail {b} (hp : s.pc = .mkdir b) :
    Step s (.mkdir false) { s with pc := .returned }
  | notify {b} (hp : s.pc = .notify b) :
    Step s .notify
      { s with
        listeners := ⟨b.dir, .empty, .notStarted⟩ :: s.listeners
        registered := true
        pc := .spawn b }
  | spawn {b L Ls} (hp : s.pc = .spawn b) (hL : s.listeners = L :: Ls) :
    Step s .spawn
      { s with
        listeners := { L with pc := .waiting } :: Ls
        pc := .body b BatchArgs.start }
  | batch {b t t' l} (hp : s.pc = .body b t) (ht : b.machine.step t l = some t') :
    Step s (.batch l) { s with pc := .body b t' }
  | stop {b t} (hp : s.pc = .body b t) (ht : t.pc = .returned) :
    Step s .stop { s with registered := false, pc := .removeAll b }
  | removeAll {b} (hp : s.pc = .removeAll b) :
    Step s .removeAll { s with dirs := s.removeDir b.dir, pc := .returned }
  | delivered {L Ls} (hr : s.registered = true) (hL : s.listeners = L :: Ls) :
    Step s .interrupt { s with listeners := L.notify :: Ls }
  | killed (hr : s.registered = false) : Step s .interrupt { s with ended := true }
  | take {i L r} (hL : s.listeners[i]? = some L) (hp : L.pc = .waiting)
      (hr : L.intqueue.recv = some r) :
    Step s (.take i)
      { s with listeners := s.listeners.set i { L with intqueue := r.2, pc := .removing } }
  | handlerRemove {i L} (hL : s.listeners[i]? = some L) (hp : L.pc = .removing) :
    Step s (.handlerRemove i)
      { s with
        dirs := s.removeDir L.dir
        listeners := s.listeners.set i { L with pc := .exiting } }
  | exit {i L} (hL : s.listeners[i]? = some L) (hp : L.pc = .exiting) :
    Step s (.exit i) { s with ended := true }

variable {s s' : ProcState} {l : ProcLabel}

/-- While the process is there, the step function takes no other steps. -/
theorem act_cases (h : s.act l = some s') : Step s l s' := by
  cases l with
  | call b =>
    simp only [act] at h
    split at h
    · obtain rfl := Option.some.inj h
      exact .call ‹_›
    · cases h
  | mkdir ok =>
    simp only [act] at h
    split at h
    · cases ok with
      | true =>
        obtain rfl := Option.some.inj h
        exact .mkdirOk ‹_›
      | false =>
        obtain rfl := Option.some.inj h
        exact .mkdirFail ‹_›
    · cases h
  | notify =>
    simp only [act] at h
    split at h
    · obtain rfl := Option.some.inj h
      exact .notify ‹_›
    · cases h
  | spawn =>
    simp only [act] at h
    split at h
    · obtain rfl := Option.some.inj h
      exact .spawn ‹_› ‹_›
    · cases h
  | batch l =>
    simp only [act] at h
    split at h
    · obtain ⟨t', ht, rfl⟩ := Option.map_eq_some_iff.mp h
      exact .batch ‹_› ht
    · cases h
  | stop =>
    simp only [act] at h
    split at h
    · split at h
      · obtain rfl := Option.some.inj h
        exact .stop ‹_› ‹_›
      · cases h
    · cases h
  | removeAll =>
    simp only [act] at h
    split at h
    · obtain rfl := Option.some.inj h
      exact .removeAll ‹_›
    · cases h
  | interrupt =>
    simp only [act] at h
    split at h
    · split at h
      · obtain rfl := Option.some.inj h
        exact .delivered ‹_› ‹_›
      · cases h
    · obtain rfl := Option.some.inj h
      exact .killed (Bool.eq_false_iff.mpr ‹_›)
  | take i =>
    simp only [act] at h
    split at h
    · split at h
      · obtain ⟨r, hr, rfl⟩ := Option.map_eq_some_iff.mp h
        exact .take ‹_› ‹_› hr
      · cases h
    · cases h
  | handlerRemove i =>
    simp only [act] at h
    split at h
    · split at h
      · obtain rfl := Option.some.inj h
        exact .handlerRemove ‹_› ‹_›
      · cases h
    · cases h
  | exit i =>
    simp only [act] at h
    split at h
    · split at h
      · obtain rfl := Option.some.inj h
        exact .exit ‹_› ‹_›
      · cases h
    · cases h

theorem process_step (s : ProcState) (l : ProcLabel) : process.step s l = s.step l := rfl

/-- While the process is there, its steps are those of `act`. -/
theorem step_of_live (hs : s.ended = false) (l : ProcLabel) :
    process.step s l = s.act l := by
  rw [process_step, step, hs]
  rfl

/-- The step function takes no other steps, and none once the process has
ended. -/
theorem step_cases (h : process.step s l = some s') : s.ended = false ∧ Step s l s' := by
  cases hs : s.ended with
  | true =>
    rw [process_step, step, hs] at h
    cases h
  | false =>
    rw [step_of_live hs] at h
    exact ⟨rfl, act_cases h⟩

/-! ## The condition -/

/-- **What is asked of a step**: an interrupt does not arrive while a
directory is there and no channel is registered, and a directory is not made
while a handler of an earlier call still has an interrupt to act on. -/
def Quiet (s : ProcState) : ProcLabel → Prop
  | .interrupt => s.dirs = [] ∨ s.registered = true
  | .mkdir true => ∀ L ∈ s.listeners, L.Idle
  | _ => True

instance (s : ProcState) (l : ProcLabel) : Decidable (s.Quiet l) :=
  match l with
  | .interrupt => inferInstanceAs (Decidable (_ ∨ _))
  | .mkdir true => inferInstanceAs (Decidable (∀ L ∈ s.listeners, L.Idle))
  | .mkdir false => isTrue trivial
  | .call _ => isTrue trivial
  | .notify => isTrue trivial
  | .spawn => isTrue trivial
  | .batch _ => isTrue trivial
  | .stop => isTrue trivial
  | .removeAll => isTrue trivial
  | .take _ => isTrue trivial
  | .handlerRemove _ => isTrue trivial
  | .exit _ => isTrue trivial

/-- **No directory survives**: the process has not ended, and `ParallelRun`
has not returned, with a directory present. -/
def Clean (s : ProcState) : Prop :=
  s.ended = true ∨ s.pc = .returned → s.dirs = []

/-! ## The invariant -/

/-- **The invariant of the process.** A directory is that of the call that
is under way; and while it is there, a handler that is not idle is the
handler of that call, and has not removed anything yet. -/
structure Inv (s : ProcState) : Prop where
  /-- The process does not end with a directory present. -/
  ended : s.ended = true → s.dirs = []
  /-- Every directory is that of the call. -/
  made : ∀ d ∈ s.dirs, s.pc.dir = some d
  /-- A channel is registered between `Notify` and `Stop`. -/
  registered : s.registered = s.pc.listens.isSome
  /-- It is the newest one, and its handler is that of the call. -/
  current : ∀ d L, s.pc.listens = some d → s.listeners[0]? = some L → L.dir = d
  /-- The handlers that are not idle. -/
  active : ∀ L ∈ s.listeners, ¬ L.Idle →
    s.dirs = [] ∨ (s.pc.dir = some L.dir ∧ L.pc ≠ .exiting)

/-- Where there is no directory, only the registered channel is left to
speak about. -/
theorem Inv.of_nil (h : s.dirs = []) (hr : s.registered = s.pc.listens.isSome)
    (hc : ∀ d L, s.pc.listens = some d → s.listeners[0]? = some L → L.dir = d) :
    s.Inv where
  ended _ := h
  made d hd := by
    rw [h] at hd
    cases hd
  registered := hr
  current := hc
  active _ _ _ := Or.inl h

theorem inv_start : start.Inv := Inv.of_nil rfl rfl nofun

/-- Outside of a call there is no directory. -/
theorem Inv.dirs_eq_nil (hi : s.Inv) (hp : s.pc.dir = none) : s.dirs = [] := by
  refine List.eq_nil_iff_forall_not_mem.mpr fun d hd => ?_
  have h := hi.made d hd
  rw [hp] at h
  cases h

/-- Before `Notify` and after `Stop` no channel is registered. -/
theorem Inv.not_registered (hi : s.Inv) (hp : s.pc.listens = none) :
    s.registered = false := by
  rw [hi.registered, hp]
  rfl

/-- No directory is left once that of the call is removed. -/
theorem Inv.removeDir_eq_nil (hi : s.Inv) {d : GoString} (hp : s.pc.dir = some d) :
    s.removeDir d = [] := by
  refine List.filter_eq_nil_iff.mpr fun d' hd' => ?_
  have h : d = d' := Option.some.inj (hp.symm.trans (hi.made d' hd'))
  rw [h, decide_eq_true_eq]
  exact not_not_intro rfl

/-- No directory is left once a handler that has an interrupt has removed
its own. -/
theorem Inv.removeDir_active (hi : s.Inv) {L : Listener} (hL : L ∈ s.listeners)
    (hidle : ¬ L.Idle) : s.removeDir L.dir = [] := by
  rcases hi.active L hL hidle with h | h
  · rw [removeDir, h]
    rfl
  · exact hi.removeDir_eq_nil h.1

/-- What replaces a listener and has its directory is as good as it for the
registered channel. -/
theorem Inv.current_set (hi : s.Inv) {i : ℕ} {L L' : Listener}
    (hL : s.listeners[i]? = some L) (hdir : L'.dir = L.dir) :
    ∀ d L₀, s.pc.listens = some d → (s.listeners.set i L')[0]? = some L₀ → L₀.dir = d := by
  intro d L₀ hd h₀
  rw [List.getElem?_set] at h₀
  split at h₀
  · rename_i hi₀
    split at h₀
    · obtain rfl := Option.some.inj h₀
      rw [hdir]
      exact hi.current d L hd (hi₀ ▸ hL)
    · cases h₀
  · exact hi.current d L₀ hd h₀

/-- **A step of a channel or of its handler**: a listener is replaced by one
of the same directory, that does not exit while the directory is there. -/
theorem Inv.set {t : ProcState} (hi : s.Inv) {i : ℕ} {L : Listener} (L' : Listener)
    (hL : s.listeners[i]? = some L) (hdir : L'.dir = L.dir)
    (hact : s.dirs = [] ∨ (s.pc.dir = some L'.dir ∧ L'.pc ≠ .exiting))
    (hended : t.ended = s.ended) (hdirs : t.dirs = s.dirs)
    (hreg : t.registered = s.registered) (hlist : t.listeners = s.listeners.set i L')
    (hpc : t.pc.dir = s.pc.dir) (hlst : t.pc.listens = s.pc.listens) : t.Inv where
  ended h := hdirs.trans (hi.ended (hended.symm.trans h))
  made d hd := hpc.trans (hi.made d (hdirs ▸ hd))
  registered := by
    rw [hreg, hlst]
    exact hi.registered
  current := by
    rw [hlist, hlst]
    exact hi.current_set hL hdir
  active L₀ hL₀ hidle := by
    rw [hlist] at hL₀
    rw [hdirs, hpc]
    rcases List.mem_or_eq_of_mem_set hL₀ with hmem | rfl
    · exact hi.active L₀ hmem hidle
    · exact hact

/-- The handler of the registered channel has the directory of the call. -/
theorem Inv.dir_current (hi : s.Inv) {d : GoString} {L : Listener}
    (hd : s.pc.listens = some d) (hL : s.listeners[0]? = some L) :
    s.pc.dir = some L.dir := by
  rw [hi.current d L hd hL]
  exact CallPc.dir_of_listens hd

/-- `Notify` makes the channel of the call the newest one. -/
theorem Inv.notify (hi : s.Inv) {b : BatchArgs} (hp : s.pc = .notify b) :
    Inv { s with
      listeners := ⟨b.dir, .empty, .notStarted⟩ :: s.listeners
      registered := true
      pc := .spawn b } := by
  have hdir : (CallPc.spawn b).dir = s.pc.dir := by rw [hp]; rfl
  refine ⟨hi.ended, fun d hd => hdir.trans (hi.made d hd), rfl, fun d L hd hL => ?_,
    fun L hL hidle => ?_⟩
  · rw [← Option.some.inj hL]
    exact Option.some.inj hd
  · rcases List.mem_cons.mp hL with rfl | hL
    · exact Or.inr ⟨rfl, nofun⟩
    · show s.dirs = [] ∨ ((CallPc.spawn b).dir = some L.dir ∧ L.pc ≠ .exiting)
      rw [hdir]
      exact hi.active L hL hidle

/-- The handler of the call is started. -/
theorem Inv.spawn (hi : s.Inv) {b : BatchArgs} {L : Listener} {Ls : List Listener}
    (hp : s.pc = .spawn b) (hL : s.listeners = L :: Ls) :
    Inv { s with
      listeners := { L with pc := .waiting } :: Ls
      pc := .body b BatchArgs.start } := by
  have hdir : (CallPc.body b BatchArgs.start).dir = s.pc.dir := by rw [hp]; rfl
  have hlst : (CallPc.body b BatchArgs.start).listens = s.pc.listens := by rw [hp]; rfl
  have h₀ : s.listeners[0]? = some L := by rw [hL]; rfl
  have hset : { L with pc := .waiting } :: Ls
      = s.listeners.set 0 { L with pc := .waiting } := by rw [hL]; rfl
  have hcur : s.pc.dir = some L.dir := hi.dir_current hlst.symm h₀
  exact hi.set { L with pc := .waiting } h₀ rfl (Or.inr ⟨hcur, nofun⟩) rfl rfl rfl hset
    hdir hlst

/-- An interrupt is delivered to the registered channel. -/
theorem Inv.delivered (hi : s.Inv) {L : Listener} {Ls : List Listener}
    (hr : s.registered = true) (hL : s.listeners = L :: Ls) :
    Inv { s with listeners := L.notify :: Ls } := by
  obtain ⟨d, hd⟩ := Option.isSome_iff_exists.mp (hi.registered ▸ hr)
  have h₀ : s.listeners[0]? = some L := by rw [hL]; rfl
  have hset : L.notify :: Ls = s.listeners.set 0 L.notify := by rw [hL]; rfl
  have hcur : s.pc.dir = some L.dir := hi.dir_current hd h₀
  refine hi.set L.notify h₀ rfl ?_ rfl rfl rfl hset rfl rfl
  -- an idle handler is still at its receive, any other one is as it was
  by_cases hidle : L.Idle
  · refine Or.inr ⟨hcur, ?_⟩
    show L.pc ≠ .exiting
    rw [hidle.2]
    exact nofun
  · exact hi.active L (List.mem_of_getElem? h₀) hidle

/-- **One step keeps the invariant**, if it is a quiet one. -/
theorem Inv.step (hi : s.Inv) (hq : s.Quiet l) (hlive : s.ended = false)
    (h : Step s l s') : s'.Inv := by
  cases h with
  | call hp =>
    exact .of_nil (hi.dirs_eq_nil (by rw [hp]; rfl)) (hi.not_registered (by rw [hp]; rfl))
      nofun
  | mkdirOk hp =>
    have hnil := hi.dirs_eq_nil (by rw [hp]; rfl)
    refine ⟨fun he => ?_, fun d hd => ?_, hi.not_registered (by rw [hp]; rfl), nofun,
      fun L hL hidle => absurd (hq L hL) hidle⟩
    · rw [hlive] at he
      cases he
    · rw [hnil, List.mem_singleton] at hd
      rw [hd]
      rfl
  | mkdirFail hp =>
    exact .of_nil (hi.dirs_eq_nil (by rw [hp]; rfl)) (hi.not_registered (by rw [hp]; rfl))
      nofun
  | notify hp => exact hi.notify hp
  | spawn hp hL => exact hi.spawn hp hL
  | @batch b t t' l hp ht =>
    have hdir : (CallPc.body b t').dir = s.pc.dir := by rw [hp]; rfl
    have hlst : (CallPc.body b t').listens = s.pc.listens := by rw [hp]; rfl
    exact ⟨hi.ended, fun d hd => hdir.trans (hi.made d hd), hlst ▸ hi.registered,
      hlst ▸ hi.current, hdir ▸ hi.active⟩
  | @stop b t hp ht =>
    have hdir : (CallPc.removeAll b).dir = s.pc.dir := by rw [hp]; rfl
    exact ⟨hi.ended, fun d hd => hdir.trans (hi.made d hd), rfl, nofun, hdir ▸ hi.active⟩
  | removeAll hp =>
    exact .of_nil (hi.removeDir_eq_nil (by rw [hp]; rfl))
      (hi.not_registered (by rw [hp]; rfl)) nofun
  | delivered hr hL => exact hi.delivered hr hL
  | killed hr =>
    refine .of_nil (hq.resolve_right ?_) hi.registered hi.current
    rw [hr]
    exact nofun
  | @take i L r hL hp hr =>
    refine hi.set { L with intqueue := r.2, pc := .removing } hL rfl ?_ rfl rfl rfl rfl rfl rfl
    have hact := hi.active L (List.mem_of_getElem? hL) (Listener.not_idle_of_recv hr)
    exact hact.imp_right fun h => ⟨h.1, nofun⟩
  | @handlerRemove i L hL hp =>
    have hidle : ¬ L.Idle := Listener.not_idle_of_pc (by rw [hp]; exact nofun)
    exact .of_nil (hi.removeDir_active (List.mem_of_getElem? hL) hidle) hi.registered
      (hi.current_set hL rfl)
  | @exit i L hL hp =>
    have hidle : ¬ L.Idle := Listener.not_idle_of_pc (by rw [hp]; exact nofun)
    refine .of_nil ?_ hi.registered hi.current
    exact (hi.active L (List.mem_of_getElem? hL) hidle).resolve_right (fun h => h.2 hp)

/-- The invariant is what makes a state clean. -/
theorem Inv.clean (hi : s.Inv) : s.Clean := by
  rintro (he | hp)
  · exact hi.ended he
  · exact hi.dirs_eq_nil (by rw [hp]; rfl)

/-! ## Where a directory survives -/

/-- **An interrupt that finds no channel registered leaves every directory
behind**: the process ends at once. -/
theorem leak_of_interrupt (hlive : s.ended = false) (hr : s.registered = false) :
    ∃ s', process.step s .interrupt = some s' ∧ s'.ended = true ∧ s'.dirs = s.dirs := by
  refine ⟨{ s with ended := true }, ?_, rfl, rfl⟩
  rw [step_of_live hlive, act, hr]
  rfl

/-- **A handler that still has an interrupt to act on can end the process
under a later call**: every directory but its own is left behind. -/
theorem leak_of_pending (hlive : s.ended = false) {i : ℕ} {L : Listener}
    (hL : s.listeners[i]? = some L) (hp : L.pc = .waiting) (hq : L.intqueue.buf ≠ [])
    {d : GoString} (hd : d ∈ s.dirs) (hne : d ≠ L.dir) :
    ∃ s', process.runFrom s [.take i, .handlerRemove i, .exit i] = some s'
      ∧ s'.ended = true ∧ d ∈ s'.dirs := by
  obtain ⟨a, q, hrecv⟩ := Chan.exists_recv hq
  have hi : i < s.listeners.length := (List.getElem?_eq_some_iff.mp hL).1
  let L₁ : Listener := { L with intqueue := q, pc := .removing }
  let s₁ : ProcState := { s with listeners := s.listeners.set i L₁ }
  have h₁ : process.step s (.take i) = some s₁ := by
    rw [step_of_live hlive, act, hL]
    simp only [hp, hrecv, if_true, Option.map_some]
    rfl
  have hL₁ : s₁.listeners[i]? = some L₁ := List.getElem?_set_self hi
  let L₂ : Listener := { L₁ with pc := .exiting }
  let s₂ : ProcState :=
    { s₁ with dirs := s₁.removeDir L.dir, listeners := s₁.listeners.set i L₂ }
  have h₂ : process.step s₁ (.handlerRemove i) = some s₂ := by
    rw [step_of_live (s := s₁) hlive, act, hL₁]
    rfl
  have hL₂ : s₂.listeners[i]? = some L₂ :=
    List.getElem?_set_self (List.getElem?_eq_some_iff.mp hL₁).1
  have h₃ : process.step s₂ (.exit i) = some { s₂ with ended := true } := by
    rw [step_of_live (s := s₂) hlive, act, hL₂]
    rfl
  refine ⟨{ s₂ with ended := true }, ?_, rfl, ?_⟩
  · simp only [Machine.runFrom_cons, h₁, h₂, h₃, Option.bind_some, Machine.runFrom_nil]
  · exact List.mem_filter.mpr ⟨hd, decide_eq_true hne⟩

end ProcState

/-- **No temporary directory survives**: however the calls of `ParallelRun`,
their tasks, their handlers and the interrupts are interleaved, if no
interrupt arrives while a directory is there and no channel is registered,
and no directory is made while an earlier handler has an interrupt to act on,
the process does not end and `ParallelRun` does not return with a directory
present. Neither can be left out: wherever a run has come to, an interrupt
of the first kind leaves a directory behind, and so can a handler of the
second kind. -/
theorem tmpdir_removed (ls : List ProcLabel) (s : ProcState)
    (hrun : process.run ls = some s) :
    (process.Meets ProcState.Quiet process.start ls → s.Clean)
    ∧ (s.ended = false → s.dirs ≠ [] → s.registered = false →
      ∃ s', process.step s .interrupt = some s' ∧ ¬ s'.Clean)
    ∧ (s.ended = false → ∀ i L, s.listeners[i]? = some L → L.pc = .waiting →
      L.intqueue.buf ≠ [] → (∃ d ∈ s.dirs, d ≠ L.dir) →
      ∃ s', process.runFrom s [.take i, .handlerRemove i, .exit i] = some s'
        ∧ ¬ s'.Clean) := by
  refine ⟨fun hquiet => ?_, fun hlive hdirs hr => ?_, fun hlive i L hL hp hq hd => ?_⟩
  · refine ProcState.Inv.clean
      (Machine.meets_rec ProcState.inv_start (fun s l s' hi hq h => ?_) hrun hquiet)
    have hstep := ProcState.step_cases h
    exact hi.step hq hstep.1 hstep.2
  · obtain ⟨s', hs', hended, hsame⟩ := ProcState.leak_of_interrupt hlive hr
    exact ⟨s', hs', fun hclean => hdirs (hsame ▸ hclean (Or.inl hended))⟩
  · obtain ⟨d, hmem, hne⟩ := hd
    obtain ⟨s', hs', hended, hleft⟩ := ProcState.leak_of_pending hlive hL hp hq hmem hne
    refine ⟨s', hs', fun hclean => ?_⟩
    rw [hclean (Or.inl hended)] at hleft
    exact List.not_mem_nil hleft

/-- A batch of one task that writes a byte. -/
def oneTaskBatch : BatchArgs :=
  ⟨"/tmp/.task.7".toList, ["a".toList], fun _ => [⟨.output, [65]⟩], fun _ => true⟩

/-- An interrupt while a task of a batch runs: the handler takes it, removes the
directory and ends the process. -/
theorem tmpdir_removed_handled :
    ∃ s, process.run [.call oneTaskBatch, .mkdir true, .notify, .spawn, .batch .createOut,
        .batch .createErr, .batch .newTask, .interrupt, .batch (.write 0), .take 0,
        .handlerRemove 0, .exit 0] = some s
      ∧ s.ended = true ∧ s.dirs = [] :=
  ⟨_, rfl, rfl, (tmpdir_removed [.call oneTaskBatch, .mkdir true, .notify, .spawn,
    .batch .createOut, .batch .createErr, .batch .newTask, .interrupt, .batch (.write 0), .take 0,
    .handlerRemove 0, .exit 0] _ rfl).1 (by decide) (Or.inl rfl)⟩

/-- An interrupt right after `Mkdir`: the process ends, and the directory
stays. -/
theorem tmpdir_survives :
    ∃ s, process.run [.call oneTaskBatch, .mkdir true, .interrupt] = some s
      ∧ s.ended = true ∧ s.dirs = ["/tmp/.task.7".toList] :=
  ⟨_, rfl, rfl, rfl⟩
