import Mathlib.Tactic.Ring
import Sesh.ByteStore
import Sesh.TempFiles

/-!
# The console, and a serial run

What the program shows goes to two places, its output and its error output.
The bytes of the tasks go there, and so do lines of the program's own: the
line that announces a host, and notices. The error output is kept as a list
of chunks, so that the tasks' bytes can be told from the program's lines.

`SerialRun` (`util.go`) is the plain way of running the tasks: one host
after the other, each task writing straight to the console. What it leaves
there is the meaning the parallel run is held against
(`serialRun_console`).
-/

/-- One write of a task, to one of its streams. -/
structure Write where
  /-- The stream written to. -/
  stream : TaskStream
  /-- The bytes written. -/
  bytes : Bytes
  deriving DecidableEq, Repr

/-- The bytes a sequence of writes puts on a stream. -/
def bytesOn (st : TaskStream) (ws : List Write) : Bytes :=
  (ws.filter (fun w => w.stream = st)).flatMap Write.bytes

/-- What the error output receives: the line that announces a host, another
line of the program's own, or bytes of a task. -/
inductive ErrChunk
  | report (line : GoString)
  | notice (line : GoString)
  | task (bytes : Bytes)
  deriving DecidableEq, Repr

/-- The bytes of the tasks on the error output. -/
def taskBytes (cs : List ErrChunk) : Bytes :=
  cs.flatMap (fun c => match c with
    | .report _ => []
    | .notice _ => []
    | .task b => b)

/-- The lines that announce the hosts. -/
def reportLines (cs : List ErrChunk) : List GoString :=
  cs.filterMap (fun c => match c with
    | .report line => some line
    | .notice _ => none
    | .task _ => none)

/-- `report`: the line that announces a host. -/
def report (label host : GoString) (color : Bool) : GoString :=
  if color then
    "\x1b[33m".toList ++ label ++ "========== ".toList ++ host
      ++ " ==========\x1b[0m\n".toList
  else
    label ++ "========== ".toList ++ host ++ " ==========\n".toList

/-- **The console**: what the program's output and error output have
received, and the positions of the hosts a task was started for. -/
structure Console where
  /-- The bytes on the output. -/
  output : Bytes
  /-- The chunks on the error output. -/
  errOutput : List ErrChunk
  /-- The hosts a task was started for, by position. -/
  started : List ℕ
  deriving DecidableEq, Repr

namespace Console

/-- Nothing shown yet. -/
def empty : Console := ⟨[], [], []⟩

/-- A line of the program's own. -/
def notice (c : Console) (line : GoString) : Console :=
  { c with errOutput := c.errOutput ++ [.notice line] }

/-- A write of a task that has the console itself as its output and its
error output. -/
def write (c : Console) (w : Write) : Console :=
  match w.stream with
  | .output => { c with output := c.output ++ w.bytes }
  | .errOutput => { c with errOutput := c.errOutput ++ [.task w.bytes] }

/-- A console with more on it: bytes on the output, chunks on the error
output, and tasks started. -/
def extend (c : Console) (out : Bytes) (err : List ErrChunk) (pos : List ℕ) :
    Console :=
  ⟨c.output ++ out, c.errOutput ++ err, c.started ++ pos⟩

end Console

/-- The slice expression `xs[start:stop]`, `none` where it panics. (The
capacity of the host list is not modelled: the program never slices past
its length, except when the list is empty, and then its capacity is zero
too.) -/
def goSlice {α : Type} (xs : List α) (start stop : ℤ) : Option (List α) :=
  if 0 ≤ start ∧ start ≤ stop ∧ stop ≤ xs.length then
    some ((xs.take stop.toNat).drop start.toNat)
  else none

theorem goSlice_natCast {α : Type} {xs : List α} {a b : ℕ} (hab : a ≤ b)
    (hb : b ≤ xs.length) : goSlice xs a b = some ((xs.take b).drop a) := by
  refine if_pos ⟨?_, ?_, ?_⟩ <;> omega

/-- A slice is taken between two positions of the list. -/
theorem exists_of_goSlice {α : Type} {xs ys : List α} {start stop : ℤ}
    (h : goSlice xs start stop = some ys) :
    ∃ a b : ℕ, start = a ∧ stop = b ∧ a ≤ b ∧ b ≤ xs.length := by
  unfold goSlice at h
  split at h
  · rename_i hc
    exact ⟨start.toNat, stop.toNat, by omega, by omega, by omega, by omega⟩
  · cases h

/-- `fmt.Sprintf("%d/%d ", i, n)`: which host of how many. -/
def progressLabel (i n : ℤ) : GoString :=
  showInt i ++ '/' :: showInt n ++ [' ']

/-- One turn of the loop of `SerialRun`: the task of the host is announced,
with its position in the whole list, and then runs to its end. -/
def serialTask (work : ℕ → List Write) (n start : ℤ) (c : Console)
    (hi : GoString × ℕ) : Console :=
  let pos := hi.2 + start.toNat
  let line := report (progressLabel (hi.2 + 1 + start) n) hi.1 true
  let c := { c with
    errOutput := c.errOutput ++ [.report line]
    started := c.started ++ [pos] }
  (work pos).foldl Console.write c

/-- `SerialRun`, `none` where it panics. -/
def serialRun (work : ℕ → List Write) (hosts : List GoString)
    (start stop : ℤ) (c : Console) : Option Console :=
  (goSlice hosts start stop).map (fun hostArr =>
    hostArr.zipIdx.foldl (serialTask work hosts.length start) c)

/-! ## What a serial run leaves on the console -/

theorem bytesOn_cons (st : TaskStream) (w : Write) (ws : List Write) :
    bytesOn st (w :: ws) = (if w.stream = st then w.bytes else []) ++ bytesOn st ws := by
  unfold bytesOn
  by_cases hs : w.stream = st
  · rw [List.filter_cons_of_pos (by simpa using hs), List.flatMap_cons, if_pos hs]
  · rw [List.filter_cons_of_neg (by simpa using hs), if_neg hs, List.nil_append]

theorem taskBytes_append (cs cs' : List ErrChunk) :
    taskBytes (cs ++ cs') = taskBytes cs ++ taskBytes cs' :=
  List.flatMap_append

theorem reportLines_append (cs cs' : List ErrChunk) :
    reportLines (cs ++ cs') = reportLines cs ++ reportLines cs' :=
  List.filterMap_append

namespace Console

theorem extend_extend (c : Console) (out out' : Bytes) (err err' : List ErrChunk)
    (pos pos' : List ℕ) :
    (c.extend out err pos).extend out' err' pos'
      = c.extend (out ++ out') (err ++ err') (pos ++ pos') := by
  simp only [extend, List.append_assoc]

@[simp] theorem extend_nil (c : Console) : c.extend [] [] [] = c := by
  simp only [extend, List.append_nil]

/-- The chunks a sequence of writes puts on the error output. -/
def errChunks (ws : List Write) : List ErrChunk :=
  (ws.filter (fun w => w.stream = .errOutput)).map (fun w => .task w.bytes)

/-- What a task writes to the console. -/
theorem foldl_write (ws : List Write) (c : Console) :
    ws.foldl write c = c.extend (bytesOn .output ws) (errChunks ws) [] := by
  induction ws generalizing c with
  | nil => exact (extend_nil c).symm
  | cons w ws ih =>
    have hw : c.write w = c.extend (if w.stream = .output then w.bytes else [])
        (errChunks [w]) [] := by
      unfold write extend errChunks
      cases hs : w.stream <;> simp [hs]
    have herr : errChunks (w :: ws) = errChunks [w] ++ errChunks ws := by
      unfold errChunks
      rw [← List.map_append, ← List.filter_append]
      rfl
    rw [List.foldl_cons, ih, hw, extend_extend, bytesOn_cons, herr]
    rfl

theorem taskBytes_errChunks (ws : List Write) :
    taskBytes (errChunks ws) = bytesOn .errOutput ws := by
  unfold taskBytes errChunks bytesOn
  rw [List.flatMap_map]

theorem reportLines_errChunks (ws : List Write) :
    reportLines (errChunks ws) = [] := by
  unfold reportLines errChunks
  rw [List.filterMap_map]
  exact List.filterMap_eq_nil_iff.mpr fun _ _ => rfl

end Console

/-- What the tasks of `k` hosts from position `a` on write on a stream, in
host order. -/
def workBytes (work : ℕ → List Write) (st : TaskStream) (a k : ℕ) : Bytes :=
  (List.range' a k).flatMap (fun i => bytesOn st (work i))

/-- What the host at position `i` of `n` puts on the error output of a
serial run. -/
def hostChunks (work : ℕ → List Write) (n : ℤ) (hi : GoString × ℕ) :
    List ErrChunk :=
  .report (report (progressLabel (hi.2 + 1) n) hi.1 true)
    :: Console.errChunks (work hi.2)

/-- The hosts at the positions from `a` to `b`, with their positions. -/
def hostsAt (hosts : List GoString) (a b : ℕ) : List (GoString × ℕ) :=
  ((hosts.take b).drop a).zipIdx a

theorem workBytes_add (work : ℕ → List Write) (st : TaskStream) (a k k' : ℕ) :
    workBytes work st a (k + k')
      = workBytes work st a k ++ workBytes work st (a + k) k' := by
  unfold workBytes
  rw [← List.flatMap_append, ← List.range'_append_1]

theorem workBytes_succ (work : ℕ → List Write) (st : TaskStream) (a k : ℕ) :
    workBytes work st a (k + 1)
      = workBytes work st a k ++ bytesOn st (work (a + k)) := by
  rw [workBytes_add]
  exact congrArg _ (List.append_nil _)

theorem hostsAt_append (hosts : List GoString) {a m b : ℕ} (ham : a ≤ m)
    (hmb : m ≤ b) (hb : b ≤ hosts.length) :
    hostsAt hosts a m ++ hostsAt hosts m b = hostsAt hosts a b := by
  unfold hostsAt
  have hlen : ((hosts.take m).drop a).length = m - a := by
    rw [List.length_drop, List.length_take]
    omega
  have hcut : (hosts.take b).drop a
      = (hosts.take m).drop a ++ (hosts.take b).drop m := by
    have ht : (hosts.take b).take m = hosts.take m := by
      rw [List.take_take, Nat.min_eq_left hmb]
    conv_lhs => rw [← List.take_append_drop m (hosts.take b), ht]
    rw [List.drop_append_of_le_length (by rw [List.length_take]; omega)]
  rw [hcut, List.zipIdx_append, hlen]
  congr 2
  omega

/-- The turns of the loop of `SerialRun`, host by host. -/
theorem foldl_serialTask (work : ℕ → List Write) (n : ℤ) (a : ℕ)
    (arr : List GoString) (k : ℕ) (c : Console) :
    (arr.zipIdx k).foldl (serialTask work n a) c
      = c.extend (workBytes work .output (k + a) arr.length)
        ((arr.zipIdx (k + a)).flatMap (hostChunks work n))
        (List.range' (k + a) arr.length) := by
  induction arr generalizing k c with
  | nil => exact (Console.extend_nil c).symm
  | cons h arr ih =>
    have hstep : serialTask work n a c (h, k)
        = c.extend (bytesOn .output (work (k + a)))
          (hostChunks work n (h, k + a)) [k + a] := by
      simp only [serialTask, Console.foldl_write, Int.toNat_natCast]
      have hlabel : ((k : ℤ) + 1 + a) = ((k + a : ℕ) : ℤ) + 1 := by push_cast; ring
      simp only [Console.extend, hostChunks, hlabel, List.append_nil,
        List.append_assoc, List.singleton_append]
    rw [List.zipIdx_cons, List.foldl_cons, hstep, ih, Console.extend_extend,
      List.zipIdx_cons, List.flatMap_cons, List.length_cons, List.range'_succ,
      show k + 1 + a = k + a + 1 by omega]
    rfl

/-- **What a serial run leaves on the console**: the bytes of each host's
task, in host order, each host announced with its position in the whole
list. -/
theorem serialRun_console (work : ℕ → List Write) {hosts : List GoString}
    {a b : ℕ} (hab : a ≤ b) (hb : b ≤ hosts.length) (c : Console) :
    serialRun work hosts a b c
      = some (c.extend (workBytes work .output a (b - a))
          ((hostsAt hosts a b).flatMap (hostChunks work hosts.length))
          (List.range' a (b - a))) := by
  have hlen : ((hosts.take b).drop a).length = b - a := by
    rw [List.length_drop, List.length_take]
    omega
  rw [serialRun, goSlice_natCast hab hb, Option.map_some, foldl_serialTask, hlen, Nat.zero_add]
  rfl

/-- The tasks' bytes on the error output of a serial run. -/
theorem taskBytes_flatMap_hostChunks (work : ℕ → List Write) (n : ℤ)
    (arr : List GoString) (a : ℕ) :
    taskBytes ((arr.zipIdx a).flatMap (hostChunks work n))
      = workBytes work .errOutput a arr.length := by
  induction arr generalizing a with
  | nil => rfl
  | cons h arr ih =>
    have hhead : taskBytes (hostChunks work n (h, a))
        = bytesOn .errOutput (work a) :=
      Console.taskBytes_errChunks (work a)
    rw [List.zipIdx_cons, List.flatMap_cons, taskBytes_append, ih, hhead]
    unfold workBytes
    rw [List.length_cons, List.range'_succ, List.flatMap_cons]

theorem taskBytes_hostsAt (work : ℕ → List Write) (n : ℤ) {hosts : List GoString}
    {a b : ℕ} (hab : a ≤ b) (hb : b ≤ hosts.length) :
    taskBytes ((hostsAt hosts a b).flatMap (hostChunks work n))
      = workBytes work .errOutput a (b - a) := by
  have hlen : ((hosts.take b).drop a).length = b - a := by
    rw [List.length_drop, List.length_take]
    omega
  rw [hostsAt, taskBytes_flatMap_hostChunks, hlen]

/-- The lines that announce the hosts of a serial run. -/
theorem reportLines_flatMap_hostChunks (work : ℕ → List Write) (n : ℤ)
    (his : List (GoString × ℕ)) :
    reportLines (his.flatMap (hostChunks work n))
      = his.map (fun hi => report (progressLabel (hi.2 + 1) n) hi.1 true) := by
  induction his with
  | nil => rfl
  | cons hi his ih =>
    have hhead : reportLines (hostChunks work n hi)
        = [report (progressLabel (hi.2 + 1) n) hi.1 true] :=
      congrArg (List.cons _) (Console.reportLines_errChunks (work hi.2))
    rw [List.flatMap_cons, reportLines_append, ih, hhead]
    rfl
