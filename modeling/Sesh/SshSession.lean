import Sesh.SshEof
import Sesh.SshRequests

/-!
# A command on a remote host

What a task does with its connection is one call: `session.Run(task.Cmd)`,
with the file of the task as standard output and as standard error
(`batch/ssh.go`, `Work`). A session is a channel and the goroutines that work
for it (`ssh/session.go`): one that asks for the command and then waits, one
that ends the input of the command, two that copy its output, and one that
follows the requests of the server to learn how the command ended.

The machine `Ssh.sessions` runs all of them against a server that does what
it likes, on top of the channel of `Ssh.logged`. When `Run` has returned, the
file of the task has everything that the server sent on the two streams, and
the error is the one that `wait` computes from all the requests of the server
(`session_run`). At any time before that, the file has an initial part of
each stream (`session_output`), and the server has been asked for the command
at most once (`session_exec`).
-/

namespace Ssh

open Channel

/-! ## How a command ended -/

/-- **`Waitmsg`.** -/
structure Waitmsg where
  status : ℤ
  signal : Bytes
  msg : Bytes
  lang : Bytes
  deriving DecidableEq, Repr

/-- The numbers of the signals. Two of those that have a name have none. -/
def signals : List (Bytes × ℤ) :=
  [(ascii "ABRT", 6), (ascii "ALRM", 14), (ascii "FPE", 8), (ascii "HUP", 1), (ascii "ILL", 4),
    (ascii "INT", 2), (ascii "KILL", 9), (ascii "PIPE", 13), (ascii "QUIT", 3),
    (ascii "SEGV", 11), (ascii "TERM", 15)]

/-- The struct that `wait` reads a signal into, which has no name. -/
def exitSignal : StructType :=
  ⟨[], 0, [field "Signal" .string, field "CoreDumped" .bool, field "Error" .string,
    field "Lang" .string], by decide⟩

/-- The errors of a session. -/
inductive SessionError
  | text (msg : GoString)
  | eof
  /-- `ssh: command %v failed`. -/
  | commandFailed (cmd : Bytes)
  /-- `OpenChannelError`. -/
  | openFailure (m : channelOpenFailureMsg.Val)
  /-- A message that is no answer to what was asked. -/
  | unexpected (what : GoString) (m : Message)
  /-- `ExitError`. -/
  | exit (wm : Waitmsg)

/-- `wm` before the first request. -/
def Waitmsg.initial : Waitmsg := ⟨-1, [], [], []⟩

/-- The requests that `wait` looks at. -/
def exitStatusType : Bytes := ascii "exit-status"
def exitSignalType : Bytes := ascii "exit-signal"

/-- What one turn of the loop of `wait` comes to. -/
inductive Turn
  | next (wm : Waitmsg)
  /-- The signal cannot be read. -/
  | return (err : GoString)
  /-- An index is out of range. -/
  | crash

/-- One turn of the loop of `wait`. The status is read without a look at how
long the payload is. -/
def waitTurn (wm : Waitmsg) (r : ChannelRequest) : Turn :=
  if r.type = exitStatusType then
    match r.payload with
    | d₀ :: d₁ :: d₂ :: d₃ :: _ => .next { wm with status := BigEndian.toNat [d₀, d₁, d₂, d₃] }
    | _ => .crash
  else if r.type = exitSignalType then
    match unmarshal exitSignal r.payload with
    | .error err => .return err
    | .ok (signal, _, msg, lang, _) => .next { wm with signal, msg, lang }
  else .next wm

/-- What `wait` returns behind its loop. -/
def Waitmsg.result (wm : Waitmsg) : Option SessionError :=
  if wm.status = 0 then none
  else if wm.status = -1 then
    if wm.signal = [] then
      some (.text "wait: remote command exited without exit status or exit signal".toList)
    else some (.exit { wm with status := 128 + (signals.lookup wm.signal).getD 0 })
  else some (.exit wm)

/-- How a call of `wait` ends. -/
inductive WaitEnd
  | returned (err : Option SessionError)
  | crashed

/-- **`wait`** on the requests that come before the queue is closed. -/
def wait : Waitmsg → List ChannelRequest → WaitEnd
  | wm, [] => .returned wm.result
  | wm, r :: reqs =>
    match waitTurn wm r with
    | .next wm => wait wm reqs
    | .return err => .returned (some (.text err))
    | .crash => .crashed

/-- **A request that `wait` can read**: a status of at least four bytes, a
signal with all its fields. -/
def Readable (r : ChannelRequest) : Prop :=
  (r.type = exitStatusType → 4 ≤ r.payload.length)
    ∧ (r.type = exitSignalType → ∃ v, unmarshal exitSignal r.payload = .ok v)

/-- The last status among these is zero. -/
def EndsInZero (reqs : List ChannelRequest) : Prop :=
  ∃ before r after, reqs = before ++ r :: after ∧ r.type = exitStatusType
    ∧ r.payload.take 4 = [0, 0, 0, 0] ∧ ∀ q ∈ after, q.type ≠ exitStatusType

/-- The first of these that `wait` cannot read is a status of less than four
bytes. -/
def CutShort (reqs : List ChannelRequest) : Prop :=
  ∃ before r after, reqs = before ++ r :: after ∧ (∀ q ∈ before, Readable q)
    ∧ r.type = exitStatusType ∧ r.payload.length < 4

theorem exitStatusType_ne : exitStatusType ≠ exitSignalType := by decide

/-- What a turn makes of a request it can read. -/
theorem waitTurn_of_readable (wm : Waitmsg) {r : ChannelRequest} (h : Readable r) :
    ∃ wm', waitTurn wm r = .next wm'
      ∧ (r.type = exitStatusType → (wm'.status = 0 ↔ r.payload.take 4 = [0, 0, 0, 0]))
      ∧ (r.type ≠ exitStatusType → wm'.status = wm.status) := by
  rw [waitTurn]
  split
  · rename_i ht
    match hp : r.payload, h.1 ht with
    | d₀ :: d₁ :: d₂ :: d₃ :: rest, _ =>
      refine ⟨_, rfl, fun _ => ?_, fun hne => absurd ht hne⟩
      have hlen : [d₀, d₁, d₂, d₃].length = 4 := rfl
      show ((BigEndian.toNat [d₀, d₁, d₂, d₃] : ℕ) : ℤ) = 0 ↔ [d₀, d₁, d₂, d₃] = [0, 0, 0, 0]
      rw [Int.natCast_eq_zero]
      constructor
      · intro h₀
        rw [← putUint32_toNat hlen, h₀]
        rfl
      · intro h₀
        rw [h₀]
        rfl
  · rename_i hne
    split
    · rename_i ht
      obtain ⟨⟨signal, core, msg, lang, u⟩, hv⟩ := h.2 ht
      rw [hv]
      exact ⟨_, rfl, fun he => absurd he hne, fun _ => rfl⟩
    · exact ⟨wm, rfl, fun he => absurd he hne, fun _ => rfl⟩

/-- What a turn makes of a request that it cannot read. -/
theorem waitTurn_of_not_readable (wm : Waitmsg) {r : ChannelRequest} (h : ¬ Readable r) :
    waitTurn wm r = .crash ∨ ∃ err, waitTurn wm r = .return err := by
  rw [waitTurn]
  split
  · rename_i ht
    split
    · rename_i hp
      refine absurd ⟨fun _ => ?_, fun ht' => absurd (ht.symm.trans ht') exitStatusType_ne⟩ h
      rw [hp]
      simp only [List.length_cons]
      omega
    · exact .inl rfl
  · rename_i hne
    split
    · split
      · exact .inr ⟨_, rfl⟩
      · rename_i hv
        exact absurd ⟨fun ht => absurd ht hne, fun _ => ⟨_, hv⟩⟩ h
    · rename_i hne'
      exact absurd ⟨fun ht => absurd ht hne, fun ht => absurd ht hne'⟩ h

theorem endsInZero_cons {r : ChannelRequest} {reqs : List ChannelRequest} :
    EndsInZero (r :: reqs) ↔ EndsInZero reqs ∨ (r.type = exitStatusType
      ∧ r.payload.take 4 = [0, 0, 0, 0] ∧ ∀ q ∈ reqs, q.type ≠ exitStatusType) := by
  constructor
  · rintro ⟨before, r', after, heq, hr⟩
    cases before with
    | nil =>
      obtain ⟨rfl, rfl⟩ := List.cons.inj heq
      exact .inr hr
    | cons b before =>
      obtain ⟨rfl, rfl⟩ := List.cons.inj heq
      exact .inl ⟨before, r', after, rfl, hr⟩
  · rintro (⟨before, r', after, rfl, hr⟩ | hr)
    · exact ⟨r :: before, r', after, rfl, hr⟩
    · exact ⟨[], r, reqs, rfl, hr⟩

theorem Waitmsg.result_eq_none {wm : Waitmsg} : wm.result = none ↔ wm.status = 0 := by
  rw [result]
  split
  · rename_i h₀
    exact ⟨fun _ => h₀, fun _ => rfl⟩
  · rename_i h₀
    refine ⟨fun h => ?_, fun h => absurd h h₀⟩
    split at h
    · split at h <;> cases h
    · cases h

theorem wait_eq_returned_none {wm : Waitmsg} {reqs : List ChannelRequest} :
    wait wm reqs = .returned none ↔ (∀ r ∈ reqs, Readable r)
      ∧ (EndsInZero reqs ∨ (wm.status = 0 ∧ ∀ q ∈ reqs, q.type ≠ exitStatusType)) := by
  induction reqs generalizing wm with
  | nil =>
    rw [wait, WaitEnd.returned.injEq, Waitmsg.result_eq_none]
    refine ⟨fun h => ⟨nofun, .inr ⟨h, nofun⟩⟩, ?_⟩
    rintro ⟨-, ⟨before, r, after, h, -⟩ | ⟨h, -⟩⟩
    · cases before <;> cases h
    · exact h
  | cons r reqs ih =>
    rw [wait, List.forall_mem_cons, List.forall_mem_cons, endsInZero_cons]
    by_cases hr : Readable r
    · obtain ⟨wm', hturn, hstatus, hother⟩ := waitTurn_of_readable wm hr
      rw [hturn]
      simp only []
      rw [ih]
      by_cases ht : r.type = exitStatusType
      · rw [hstatus ht]
        tauto
      · rw [hother ht]
        tauto
    · refine ⟨fun h => ?_, fun h => absurd h.1.1 hr⟩
      rcases waitTurn_of_not_readable wm hr with hturn | ⟨err, hturn⟩ <;>
        rw [hturn] at h <;> cases h

/-- A turn crashes on a status that is too short, and on nothing else. -/
theorem waitTurn_eq_crash_iff {wm : Waitmsg} {r : ChannelRequest} :
    waitTurn wm r = .crash ↔ r.type = exitStatusType ∧ r.payload.length < 4 := by
  rw [waitTurn]
  split
  · rename_i ht
    split
    · rename_i hp
      refine iff_of_false nofun fun h => ?_
      have hlen := h.2
      rw [hp] at hlen
      simp only [List.length_cons] at hlen
      omega
    · rename_i hp
      refine iff_of_true rfl ⟨ht, Nat.lt_of_not_le fun hlen => ?_⟩
      match hr : r.payload, hlen with
      | d₀ :: d₁ :: d₂ :: d₃ :: rest, _ => exact hp d₀ d₁ d₂ d₃ rest hr
  · rename_i hne
    refine iff_of_false (fun h => ?_) fun h => hne h.1
    split at h
    · split at h <;> cases h
    · cases h

theorem cutShort_cons {r : ChannelRequest} {reqs : List ChannelRequest} :
    CutShort (r :: reqs)
      ↔ (r.type = exitStatusType ∧ r.payload.length < 4) ∨ (Readable r ∧ CutShort reqs) := by
  constructor
  · rintro ⟨before, r', after, heq, hbefore, hr⟩
    cases before with
    | nil =>
      obtain ⟨rfl, rfl⟩ := List.cons.inj heq
      exact .inl hr
    | cons b before =>
      obtain ⟨rfl, rfl⟩ := List.cons.inj heq
      obtain ⟨hb, hbefore⟩ := List.forall_mem_cons.mp hbefore
      exact .inr ⟨hb, before, r', after, rfl, hbefore, hr⟩
  · rintro (hr | ⟨hread, before, r', after, rfl, hbefore, hr⟩)
    · exact ⟨[], r, reqs, rfl, nofun, hr⟩
    · exact ⟨r :: before, r', after, rfl, List.forall_mem_cons.mpr ⟨hread, hbefore⟩, hr⟩

theorem wait_eq_crashed {wm : Waitmsg} {reqs : List ChannelRequest} :
    wait wm reqs = .crashed ↔ CutShort reqs := by
  induction reqs generalizing wm with
  | nil =>
    refine iff_of_false nofun ?_
    rintro ⟨before, r, after, h, -⟩
    cases before <;> cases h
  | cons r reqs ih =>
    have hcrash := @waitTurn_eq_crash_iff wm r
    rw [wait, cutShort_cons]
    by_cases hr : Readable r
    · obtain ⟨wm', hturn, -⟩ := waitTurn_of_readable wm hr
      rw [hturn] at hcrash ⊢
      simp only []
      rw [ih, ← hcrash, or_iff_right nofun, and_iff_right hr]
    · rw [or_iff_left fun h => hr h.1, ← hcrash]
      rcases waitTurn_of_not_readable wm hr with hturn | ⟨err, hturn⟩
      · rw [hturn]
        exact iff_of_true rfl rfl
      · rw [hturn]
        exact iff_of_false nofun nofun

/-- **When a command has succeeded.** `wait` returns no error exactly if it
could read every request, and the last status it was told is zero; signals
and earlier statuses do not count. It brings the client down exactly if the
first request that it cannot read is a status of less than four bytes. -/
theorem wait_eq_nil_iff (reqs : List ChannelRequest) :
    (wait .initial reqs = .returned none ↔ (∀ r ∈ reqs, Readable r) ∧ EndsInZero reqs)
    ∧ (wait .initial reqs = .crashed ↔ CutShort reqs) := by
  refine ⟨?_, wait_eq_crashed⟩
  rw [wait_eq_returned_none]
  refine and_congr_right fun _ => or_iff_left ?_
  rintro ⟨h, -⟩
  cases h

/-! ## The goroutines of a session -/

/-- Where the task stands in `NewSession` and `Run`. -/
inductive RunPc
  /-- In `openChannel`, waiting for the answer. -/
  | opening
  | opened
  /-- In `SendRequest`, waiting for the answer. -/
  | asked
  /-- In `Wait`, for the exit status. -/
  | waiting
  /-- In `Wait`, for those who copy. -/
  | collecting (waitErr : Option SessionError)
  /-- `Wait` has returned. -/
  | returned (err : Option SessionError)
  /-- `NewSession` or `Start` has returned an error. -/
  | refused (err : SessionError)

/-- Where the goroutine of the input stands. -/
inductive StdinPc
  | idle
  /-- There is nothing to copy. -/
  | copied
  /-- In `CloseWrite`. -/
  | closing
  | done

/-- Where a goroutine that copies output stands in `io.Copy`. -/
inductive CopyPc
  | idle
  | reading
  /-- A read has taken these bytes. -/
  | holding (d : Bytes)
  | done

/-- Where the goroutine of `wait` stands. -/
inductive WaitPc
  | idle
  | loop (wm : Waitmsg)
  /-- In `Reply`. -/
  | replying (wm : Waitmsg)
  | ended (w : WaitEnd)

/-- **A session**, with what has been written to the file of the task. -/
structure Session where
  run : RunPc
  stdin : StdinPc
  copy : Stream → CopyPc
  wait : WaitPc
  output : List (Stream × Bytes)

/-- The size of the buffer of `io.Copy`. -/
def copySize : ℕ := 32 * 1024

/-- The request for a command. -/
def execMsg : StructType := ⟨"execMsg".toList, 0, [field "Command" .string], by decide⟩

def execRequest (cmd : Bytes) : ChannelRequest := ⟨ascii "exec", true, marshal execMsg (cmd, ())⟩

inductive SessionLabel
  /-- `openChannel` takes the answer. -/
  | connect
  /-- `Run` is called. -/
  | exec
  | reply
  /-- There will be no answer. -/
  | noReply
  | closeWrite
  | sendEOF
  | read (st : Stream)
  | addWindow (st : Stream)
  | sendAdjust (st : Stream)
  | write (st : Stream)
  /-- `wait` takes a request. -/
  | takeRequest
  | ackRequest
  /-- `wait` finds its queue closed. -/
  | endRequests
  | takeStatus
  | collect
  | closeSession
  /-- The client's goroutine that handles packets. -/
  | handle
  | server (a : End.Act)
  | deliver (p : Side)

/-- What a step of a session is for the channel. -/
def SessionLabel.net (cmd : Bytes) : SessionLabel → Option NetLabel
  | .connect | .reply => some (.act .opener .takeMsg)
  | .exec => some (.act .opener (.sendRequest (execRequest cmd)))
  | .closeWrite => some (.act .opener .closeWrite)
  | .sendEOF => some (.act .opener .sendEOF)
  | .read st => some (.act .opener (.read st copySize))
  | .addWindow st => some (.act .opener (.addWindow st))
  | .sendAdjust st => some (.act .opener (.sendAdjust st))
  | .takeRequest => some (.act .opener .takeRequest)
  | .ackRequest => some (.act .opener (.ackRequest false))
  | .closeSession => some (.act .opener .close)
  | .handle => some (.act .opener .handle)
  | .server a => some (.act .acceptor a)
  | .deliver p => some (.deliver p)
  | .noReply | .write _ | .endRequests | .takeStatus | .collect => none

namespace Session

/-- A change to who copies a stream. -/
def setCopy (s : Session) (st : Stream) (c : CopyPc) : Session :=
  { s with copy := Function.update s.copy st c }

/-- `NewSession` or `Start` returns an error. -/
def refuse (s : Session) (err : SessionError) : Session := { s with run := .refused err }

/-- `openChannel` on the answer. -/
def connected (s : Session) : Message → Session
  | .channelOpenConfirm _ => { s with run := .opened, wait := .loop .initial }
  | .channelOpenFailure m => s.refuse (.openFailure m)
  | m => s.refuse (.unexpected "ssh: unexpected packet in response to channel open: ".toList m)

/-- `start`: nothing to copy from the input, and two streams to copy. -/
def start (s : Session) : Session :=
  { s with run := .waiting, stdin := .copied, copy := fun _ => .reading }

/-- `Start` on the answer. -/
def answered (s : Session) (cmd : Bytes) : Message → Session
  | .channelRequestSuccess _ => s.start
  | .channelRequestFailure _ => s.refuse (.commandFailed cmd)
  | m => s.refuse (.unexpected "ssh: unexpected response to channel request: ".toList m)

/-- `SendRequest`, up to the answer. -/
def ask (s : Session) (cmd : Bytes) (e : End) : Session :=
  if e.ch.sentClose then s.refuse .eof
  else if maxPacket < ((Pkt.request (execRequest cmd)).bytes e.ch.remoteId).length then
    s.refuse (.text "ssh: packet too large".toList)
  else { s with run := .asked }

/-- `wait` on a request. Requests it does not know are answered, if they want
it. -/
def followed (s : Session) (wm : Waitmsg) (r : ChannelRequest) : Session :=
  { s with wait :=
      match waitTurn wm r with
      | .next wm =>
        if r.type ≠ exitStatusType ∧ r.type ≠ exitSignalType ∧ r.wantReply then .replying wm
        else .loop wm
      | .return err => .ended (.returned (some (.text err)))
      | .crash => .ended .crashed }

/-- A turn of `io.Copy` on what a read has returned. -/
def copied (s : Session) (st : Stream) : Buffer.ReadResult → Session
  | .data d => s.setCopy st (.holding d)
  | .eof => s.setCopy st .done

/-- **A step of a session**, on the client's end of the channel; `none` where
it is not enabled. -/
def next (s : Session) (cmd : Bytes) (e : End) : SessionLabel → Option Session
  | .connect =>
    match s.run with
    | .opening => e.ch.msg.recv.map (fun r => s.connected r.1)
    | _ => none
  | .exec =>
    match s.run with
    | .opened => some (s.ask cmd e)
    | _ => none
  | .reply =>
    match s.run with
    | .asked => e.ch.msg.recv.map (fun r => s.answered cmd r.1)
    | _ => none
  | .noReply =>
    match s.run with
    | .asked =>
      if e.ch.closedQueues && e.ch.msg.buf.isEmpty then some (s.refuse .eof)
      else none
    | _ => none
  | .closeWrite =>
    match s.stdin with
    | .copied => some { s with stdin := .closing }
    | _ => none
  | .sendEOF =>
    match s.stdin with
    | .closing => some { s with stdin := .done }
    | _ => none
  | .read st =>
    match s.copy st with
    | .reading => ((e.ch.buffer st).read copySize).map (fun r => s.copied st r.1)
    | _ => none
  | .write st =>
    match s.copy st with
    | .holding d =>
      match (e.lane st).reader with
      | .idle => some { s.setCopy st .reading with output := s.output ++ [(st, d)] }
      | _ => none
    | _ => none
  | .takeRequest =>
    match s.wait with
    | .loop wm => e.ch.incomingRequests.recv.map (fun r => s.followed wm r.1)
    | _ => none
  | .ackRequest =>
    match s.wait with
    | .replying wm => some { s with wait := .loop wm }
    | _ => none
  | .endRequests =>
    match s.wait with
    | .loop wm =>
      if e.ch.closedQueues && e.ch.incomingRequests.buf.isEmpty then
        some { s with wait := .ended (.returned wm.result) }
      else none
    | _ => none
  | .takeStatus =>
    match s.run, s.wait with
    | .waiting, .ended (.returned err) => some { s with run := .collecting err }
    | _, _ => none
  | .collect =>
    match s.run, s.stdin, s.copy .stdout, s.copy .stderr with
    -- none of those who copy has an error
    | .collecting err, .done, .done, .done => some { s with run := .returned err }
    | _, _, _, _ => none
  | .closeSession =>
    match s.run with
    | .returned _ | .refused _ => some s
    | _ => none
  | .addWindow _ | .sendAdjust _ | .handle | .server _ | .deliver _ => some s

end Session

/-- **A session and its channel.** -/
structure Remote where
  chan : Logged
  session : Session

/-- The client's end of the channel. -/
def Remote.client (x : Remote) : End := x.chan.net.ends .opener

/-- The server's end of the channel. -/
def Remote.server (x : Remote) : End := x.chan.net.ends .acceptor

/-- A step of the session and of the channel, together. -/
def Remote.step (cmd : Bytes) (x : Remote) (l : SessionLabel) : Option Remote :=
  (x.session.next cmd x.client l).bind (fun s =>
    match l.net cmd with
    | none => some ⟨x.chan, s⟩
    | some nl => (x.chan.step nl).map (fun c => ⟨c, s⟩))

/-- **The machine of a command on a remote host**, from the moment the server
has accepted the channel. -/
def sessions (cmd : Bytes) (id id' : UInt32) : Machine Remote SessionLabel :=
  ⟨⟨(logged id id').start, ⟨.opening, .idle, fun _ => .idle, .idle, []⟩⟩, Remote.step cmd⟩

/-! ## What a step can do -/

namespace Session

variable {cmd : Bytes} {e : End} {s s' : Session} {l : SessionLabel}

/-- **What a step of a session can do.** -/
inductive Step (cmd : Bytes) (e : End) (s : Session) : SessionLabel → Session → Prop
  | connect (m : Message) (hr : s.run = .opening) : Step cmd e s .connect (s.connected m)
  | exec (hr : s.run = .opened) : Step cmd e s .exec (s.ask cmd e)
  | reply (m : Message) (hr : s.run = .asked) : Step cmd e s .reply (s.answered cmd m)
  | noReply (hr : s.run = .asked) : Step cmd e s .noReply (s.refuse .eof)
  | closeWrite : Step cmd e s .closeWrite { s with stdin := .closing }
  | sendEOF : Step cmd e s .sendEOF { s with stdin := .done }
  | read (st : Stream) (r : Buffer.ReadResult) (b : Buffer) (hc : s.copy st = .reading)
      (hb : (e.ch.buffer st).read copySize = some (r, b)) :
      Step cmd e s (.read st) (s.copied st r)
  | write (st : Stream) (d : Bytes) (hc : s.copy st = .holding d) :
      Step cmd e s (.write st) { s.setCopy st .reading with output := s.output ++ [(st, d)] }
  | takeRequest (wm : Waitmsg) (r : ChannelRequest) (q : Chan ChannelRequest 16)
      (hw : s.wait = .loop wm) (hq : e.ch.incomingRequests.recv = some (r, q)) :
      Step cmd e s .takeRequest (s.followed wm r)
  | ackRequest (wm : Waitmsg) (hw : s.wait = .replying wm) :
      Step cmd e s .ackRequest { s with wait := .loop wm }
  | endRequests (wm : Waitmsg) (hw : s.wait = .loop wm) (hq : e.ch.closedQueues = true)
      (hb : e.ch.incomingRequests.buf = []) :
      Step cmd e s .endRequests { s with wait := .ended (.returned wm.result) }
  | takeStatus (err : Option SessionError) (hr : s.run = .waiting)
      (hw : s.wait = .ended (.returned err)) :
      Step cmd e s .takeStatus { s with run := .collecting err }
  | collect (err : Option SessionError) (hr : s.run = .collecting err)
      (hc : ∀ st, s.copy st = .done) : Step cmd e s .collect { s with run := .returned err }
  | closeSession : Step cmd e s .closeSession s
  | addWindow (st : Stream) : Step cmd e s (.addWindow st) s
  | sendAdjust (st : Stream) : Step cmd e s (.sendAdjust st) s
  | handle : Step cmd e s .handle s
  | server (a : End.Act) : Step cmd e s (.server a) s
  | deliver (p : Side) : Step cmd e s (.deliver p) s

theorem closed_and_empty {α : Type} {b : Bool} {xs : List α} (h : (b && xs.isEmpty) = true) :
    b = true ∧ xs = [] := by
  rw [Bool.and_eq_true, List.isEmpty_iff] at h
  exact h

theorem step_of_next (h : s.next cmd e l = some s') : Step cmd e s l s' := by
  cases l with
  | connect =>
    rw [next] at h
    split at h
    · rename_i hr
      obtain ⟨⟨m, q⟩, -, rfl⟩ := Option.map_eq_some_iff.mp h
      exact .connect m hr
    · cases h
  | exec =>
    rw [next] at h
    split at h
    · rename_i hr
      obtain rfl := Option.some.inj h
      exact .exec hr
    · cases h
  | reply =>
    rw [next] at h
    split at h
    · rename_i hr
      obtain ⟨⟨m, q⟩, -, rfl⟩ := Option.map_eq_some_iff.mp h
      exact .reply m hr
    · cases h
  | noReply =>
    rw [next] at h
    split at h
    · rename_i hr
      split at h
      · obtain rfl := Option.some.inj h
        exact .noReply hr
      · cases h
    · cases h
  | closeWrite =>
    rw [next] at h
    split at h
    · obtain rfl := Option.some.inj h
      exact .closeWrite
    · cases h
  | sendEOF =>
    rw [next] at h
    split at h
    · obtain rfl := Option.some.inj h
      exact .sendEOF
    · cases h
  | read st =>
    rw [next] at h
    split at h
    · rename_i hc
      obtain ⟨⟨r, b⟩, hb, rfl⟩ := Option.map_eq_some_iff.mp h
      exact .read st r b hc hb
    · cases h
  | write st =>
    rw [next] at h
    split at h
    · rename_i d hc
      split at h
      · obtain rfl := Option.some.inj h
        exact .write st d hc
      · cases h
    · cases h
  | takeRequest =>
    rw [next] at h
    split at h
    · rename_i wm hw
      obtain ⟨⟨r, q⟩, hq, rfl⟩ := Option.map_eq_some_iff.mp h
      exact .takeRequest wm r q hw hq
    · cases h
  | ackRequest =>
    rw [next] at h
    split at h
    · rename_i wm hw
      obtain rfl := Option.some.inj h
      exact .ackRequest wm hw
    · cases h
  | endRequests =>
    rw [next] at h
    split at h
    · rename_i wm hw
      split at h
      · rename_i hq
        obtain ⟨hq, hb⟩ := closed_and_empty hq
        obtain rfl := Option.some.inj h
        exact .endRequests wm hw hq hb
      · cases h
    · cases h
  | takeStatus =>
    rw [next] at h
    split at h
    · rename_i err hr hw
      obtain rfl := Option.some.inj h
      exact .takeStatus err hr hw
    · cases h
  | collect =>
    rw [next] at h
    split at h
    · rename_i err hr hs hout herr
      obtain rfl := Option.some.inj h
      exact .collect err hr (fun st => by cases st <;> assumption)
    · cases h
  | closeSession =>
    rw [next] at h
    split at h
    · obtain rfl := Option.some.inj h
      exact .closeSession
    · obtain rfl := Option.some.inj h
      exact .closeSession
    · cases h
  | addWindow st =>
    obtain rfl := Option.some.inj h
    exact .addWindow st
  | sendAdjust st =>
    obtain rfl := Option.some.inj h
    exact .sendAdjust st
  | handle =>
    obtain rfl := Option.some.inj h
    exact .handle
  | server a =>
    obtain rfl := Option.some.inj h
    exact .server a
  | deliver p =>
    obtain rfl := Option.some.inj h
    exact .deliver p

theorem connected_cases (s : Session) (m : Message) :
    s.connected m = { s with run := .opened, wait := .loop .initial }
      ∨ ∃ err, s.connected m = s.refuse err := by
  cases m <;> first | exact .inl rfl | exact .inr ⟨_, rfl⟩

theorem ask_cases (s : Session) (cmd : Bytes) (e : End) :
    s.ask cmd e = { s with run := .asked } ∨ ∃ err, s.ask cmd e = s.refuse err := by
  unfold ask
  split
  · exact .inr ⟨_, rfl⟩
  · split
    · exact .inr ⟨_, rfl⟩
    · exact .inl rfl

theorem answered_cases (s : Session) (cmd : Bytes) (m : Message) :
    s.answered cmd m = s.start ∨ ∃ err, s.answered cmd m = s.refuse err := by
  cases m <;> first | exact .inl rfl | exact .inr ⟨_, rfl⟩

/-- A change to one of those who copy. -/
theorem copy_setCopy (s : Session) (st t : Stream) (c : CopyPc) :
    (s.setCopy st c).copy t = if t = st then c else s.copy t := Function.update_apply ..

/-! ## The goroutines among themselves -/

/-- Whether the command has still to be started. -/
def early : RunPc → Bool
  | .opening | .opened | .asked => true
  | _ => false

/-- Whether the command has still to be asked for. -/
def unasked : RunPc → Bool
  | .opening | .opened => true
  | _ => false

/-- **What the goroutines of a session rely on.** -/
structure Wf (s : Session) : Prop where
  early : early s.run = true → ∀ st, s.copy st = .idle
  opening : s.run = .opening → s.wait = .idle
  collecting : ∀ err, s.run = .collecting err → s.wait = .ended (.returned err)
  returned : ∀ err, s.run = .returned err →
    s.wait = .ended (.returned err) ∧ ∀ st, s.copy st = .done

theorem wf_refuse (s : Session) (err : SessionError) : (s.refuse err).Wf :=
  ⟨nofun, nofun, nofun, nofun⟩

/-- A change to one that copies, where the command has been started and `Wait`
has not returned. -/
theorem Wf.setCopy (h : s.Wf) {st : Stream} {c : CopyPc} (hi : s.copy st ≠ .idle)
    (hd : s.copy st ≠ .done) : (s.setCopy st c).Wf :=
  ⟨fun he => absurd (h.early he st) hi, h.opening, h.collecting,
    fun err hr => absurd ((h.returned err hr).2 st) hd⟩

/-- A change to `wait`, where it has not ended. -/
theorem Wf.setWait (h : s.Wf) {w : WaitPc} (hi : s.wait ≠ .idle)
    (he : ∀ end_, s.wait ≠ .ended end_) : ({ s with wait := w } : Session).Wf :=
  ⟨h.early, fun hr => absurd (h.opening hr) hi,
    fun err hr => absurd (h.collecting err hr) (he _),
    fun err hr => absurd (h.returned err hr).1 (he _)⟩

theorem Wf.step (h : s.Wf) (hs : Step cmd e s l s') : s'.Wf := by
  cases hs with
  | connect m hr =>
    rcases s.connected_cases m with heq | ⟨err, heq⟩
    · rw [heq]
      refine ⟨fun _ => h.early ?_, nofun, nofun, nofun⟩
      rw [hr]
      rfl
    · rw [heq]
      exact s.wf_refuse err
  | exec hr =>
    rcases s.ask_cases cmd e with heq | ⟨err, heq⟩
    · rw [heq]
      refine ⟨fun _ => h.early ?_, nofun, nofun, nofun⟩
      rw [hr]
      rfl
    · rw [heq]
      exact s.wf_refuse err
  | reply m hr =>
    rcases s.answered_cases cmd m with heq | ⟨err, heq⟩
    · rw [heq]
      exact ⟨nofun, nofun, nofun, nofun⟩
    · rw [heq]
      exact s.wf_refuse err
  | noReply hr => exact s.wf_refuse _
  | closeWrite => exact ⟨h.early, h.opening, h.collecting, h.returned⟩
  | sendEOF => exact ⟨h.early, h.opening, h.collecting, h.returned⟩
  | read st r b hc hb =>
    have hi : s.copy st ≠ .idle := by rw [hc]; nofun
    have hd : s.copy st ≠ .done := by rw [hc]; nofun
    cases r with
    | data d => exact h.setCopy hi hd
    | eof => exact h.setCopy hi hd
  | write st d hc =>
    have hi : s.copy st ≠ .idle := by rw [hc]; nofun
    have hd : s.copy st ≠ .done := by rw [hc]; nofun
    have hset := h.setCopy (c := .reading) hi hd
    exact ⟨hset.early, hset.opening, hset.collecting, hset.returned⟩
  | takeRequest wm r q hw hq => exact h.setWait (by rw [hw]; nofun) (by rw [hw]; nofun)
  | ackRequest wm hw => exact h.setWait (by rw [hw]; nofun) (by rw [hw]; nofun)
  | endRequests wm hw => exact h.setWait (by rw [hw]; nofun) (by rw [hw]; nofun)
  | takeStatus err hr hw =>
    refine ⟨nofun, nofun, fun err' h' => ?_, nofun⟩
    rw [← RunPc.collecting.inj h']
    exact hw
  | collect err hr hc =>
    refine ⟨nofun, nofun, nofun, fun err' h' => ⟨?_, hc⟩⟩
    rw [← RunPc.returned.inj h']
    exact h.collecting err hr
  | closeSession | addWindow st | sendAdjust st | handle | server a | deliver p => exact h

/-! ## Following the requests -/

/-- **Where `wait` stands** when it has taken these requests: what it will
come to is what it has in hand, and what is still to come. -/
def Follows (taken : List ChannelRequest) (e : End) : WaitPc → Prop
  | .idle => taken = []
  | .loop wm | .replying wm => ∀ more, Ssh.wait .initial (taken ++ more) = Ssh.wait wm more
  | .ended w => (∀ more, Ssh.wait .initial (taken ++ more) = w)
      ∨ (Ssh.wait .initial taken = w ∧ e.ch.closedQueues = true
        ∧ e.ch.incomingRequests.buf = [])

/-- `wait` takes a request. -/
theorem Follows.followed {taken : List ChannelRequest} {e' : End} {wm : Waitmsg}
    {r : ChannelRequest} (h : Follows taken e (.loop wm)) :
    Follows (taken ++ [r]) e' (s.followed wm r).wait := by
  have hcons : ∀ more, Ssh.wait .initial (taken ++ [r] ++ more) = Ssh.wait wm (r :: more) := by
    intro more
    rw [List.append_assoc]
    exact h (r :: more)
  show Follows (taken ++ [r]) e' (match waitTurn wm r with
    | .next wm =>
      if r.type ≠ exitStatusType ∧ r.type ≠ exitSignalType ∧ r.wantReply then .replying wm
      else .loop wm
    | .return err => .ended (.returned (some (.text err)))
    | .crash => .ended .crashed)
  cases ht : waitTurn wm r with
  | next wm' =>
    have hnext : ∀ more, Ssh.wait .initial (taken ++ [r] ++ more) = Ssh.wait wm' more := by
      intro more
      rw [hcons, Ssh.wait, ht]
    simp only []
    split
    · exact hnext
    · exact hnext
  | «return» err =>
    refine .inl fun more => ?_
    rw [hcons, Ssh.wait, ht]
  | crash =>
    refine .inl fun more => ?_
    rw [hcons, Ssh.wait, ht]

/-- A step of another goroutine. -/
theorem Follows.congr {taken : List ChannelRequest} {e' : End} {w : WaitPc}
    (h : Follows taken e w)
    (he : e.ch.closedQueues = true → e.ch.incomingRequests.buf = [] →
      e'.ch.closedQueues = true ∧ e'.ch.incomingRequests.buf = []) : Follows taken e' w := by
  cases w with
  | idle => exact h
  | loop wm => exact h
  | replying wm => exact h
  | ended w =>
    rcases h with h | ⟨h, hq, hb⟩
    · exact .inl h
    · exact .inr ⟨h, he hq hb⟩

end Session

/-- **A step of a session is a step of its goroutines, and of the channel if
it is one.** -/
theorem Remote.step_cases {cmd : Bytes} {x x' : Remote} {l : SessionLabel}
    (h : x.step cmd l = some x') :
    Session.Step cmd x.client x.session l x'.session
      ∧ ((l.net cmd = none ∧ x'.chan = x.chan)
        ∨ ∃ nl, l.net cmd = some nl ∧ x.chan.step nl = some x'.chan) := by
  obtain ⟨s, hs, h⟩ := Option.bind_eq_some_iff.mp h
  have hstep := Session.step_of_next hs
  split at h
  · rename_i hnet
    obtain rfl := Option.some.inj h
    exact ⟨hstep, .inl ⟨hnet, rfl⟩⟩
  · rename_i nl hnet
    obtain ⟨c, hc, rfl⟩ := Option.map_eq_some_iff.mp h
    exact ⟨hstep, .inr ⟨nl, hnet, hc⟩⟩

/-! ## What holds of a session and its channel -/

namespace End

variable {e e' f : End} {ps : List Pkt} {a : Act}

theorem lane_setLane (e : End) (s t : Stream) (l : Lane) :
    (e.setLane s l).lane t = if t = s then l else e.lane t := Function.update_apply ..

/-- Who does not write has no writer. -/
theorem writer_idle_of_step (h : Step e a e' ps) (ha : ∀ s d, a ≠ .write s d)
    (hidle : ∀ s, (e.lane s).writer = .idle) (t : Stream) : (e'.lane t).writer = .idle := by
  have hset : ∀ {e : End} {s : Stream} {l : Lane}, l.writer = .idle →
      (∀ s, (e.lane s).writer = .idle) → ((e.setLane s l).lane t).writer = .idle := by
    intro e s l hl he
    rw [lane_setLane]
    split
    · exact hl
    · exact he t
  cases h with
  | writeEnded s data => exact absurd rfl (ha s data)
  | write s data => exact absurd rfl (ha s data)
  | reserve s data n w hw | refuse s data n w hw | send s n data hw | giveUp s n data hw =>
    rw [hidle s] at hw
    cases hw
  | read s k d b => exact hset (hidle s) hidle
  | readEOF s k b => exact hset (hidle s) hidle
  | addWindow s n => exact hset (hidle s) hidle
  | announce s n => exact hset (hidle s) hidle
  | withhold s n => exact hset (hidle s) hidle
  | handle b todo _ _ ht hh => cases hh <;> exact hidle t
  | _ => exact hidle t

/-- What was read of a stream changes with a read of that stream. -/
theorem heard_of_step (h : Step e a e' ps) {t : Stream} (ha : ∀ k, a ≠ .read t k) :
    (e'.lane t).got = (e.lane t).got ∧ (e'.lane t).sawEOF = (e.lane t).sawEOF := by
  have hset : ∀ {e : End} {s : Stream} {l : Lane}, l.got = (e.lane s).got →
      l.sawEOF = (e.lane s).sawEOF → ((e.setLane s l).lane t).got = (e.lane t).got
        ∧ ((e.setLane s l).lane t).sawEOF = (e.lane t).sawEOF := by
    intro e s l hgot hsaw
    rw [lane_setLane]
    split
    · rename_i hst
      rw [hst]
      exact ⟨hgot, hsaw⟩
    · exact ⟨rfl, rfl⟩
  cases h with
  | read s k d b =>
    have hne : t ≠ s := by
      rintro rfl
      exact ha k rfl
    rw [lane_setLane, if_neg hne]
    exact ⟨rfl, rfl⟩
  | readEOF s k b =>
    have hne : t ≠ s := by
      rintro rfl
      exact ha k rfl
    rw [lane_setLane, if_neg hne]
    exact ⟨rfl, rfl⟩
  | handle b todo _ _ ht hh => cases hh <;> exact ⟨rfl, rfl⟩
  | write s data | reserve s data n w | refuse s data n w | send s n data | giveUp s n data
  | addWindow s n | announce s n | withhold s n => exact hset rfl rfl
  | _ => exact ⟨rfl, rfl⟩

/-- **A read** adds what it returns to what was read, or notes the end. -/
theorem lane_of_read {s : Stream} {k : ℕ} {r : Buffer.ReadResult} {b : Buffer}
    (h : Step e (.read s k) e' ps) (hb : (e.ch.buffer s).read k = some (r, b)) :
    (∃ d, r = .data d ∧ (e'.lane s).got = (e.lane s).got ++ d)
      ∨ (r = .eof ∧ (e'.lane s).got = (e.lane s).got ∧ (e'.lane s).sawEOF = true) := by
  cases h with
  | read _ _ d b' hr hd hb' =>
    rw [hb] at hb'
    obtain ⟨rfl, -⟩ := Prod.mk.inj (Option.some.inj hb')
    refine .inl ⟨d, rfl, ?_⟩
    rw [lane_setLane, if_pos rfl]
  | readEOF _ _ b' hr hd hb' =>
    rw [hb] at hb'
    obtain ⟨rfl, -⟩ := Prod.mk.inj (Option.some.inj hb')
    refine .inr ⟨rfl, ?_, ?_⟩
    · rw [lane_setLane, if_pos rfl]
    · rw [lane_setLane, if_pos rfl]

end End

open CreditFlow

/-- What one that copies has read and not written. -/
def CopyPc.held : CopyPc → Bytes
  | .holding d => d
  | _ => []

namespace Remote

variable {cmd : Bytes} {x x' : Remote} {l : SessionLabel}

/-- **What holds of a session and its channel.** -/
structure Inv (cmd : Bytes) (x : Remote) : Prop where
  chan : x.chan.Inv
  wf : x.session.Wf
  /-- The client writes nothing. -/
  writers : ∀ st, (x.client.lane st).writer = .idle
  /-- What was read is what was written, and what is about to be. -/
  output : ∀ st, (x.client.lane st).got
    = dataOf x.session.output st ++ (x.session.copy st).held
  saw : ∀ st, x.session.copy st = .done → (x.client.lane st).sawEOF = true
  wait : Session.Follows (x.chan.taken .opener) x.client x.session.wait
  /-- The client asks for nothing but the command, and once. -/
  asked : x.chan.asked .opener = [] ∨ (Session.unasked x.session.run = false
    ∧ x.chan.asked .opener = [execRequest cmd]
    ∧ ∃ id, ((Pkt.request (execRequest cmd)).bytes id).length ≤ maxPacket)

/-- What a step does to the client's end of the channel. -/
theorem client_cases (h : x.chan.Inv) (hs : x.step cmd l = some x') :
    x'.client = x.client
      ∨ (∃ a ps, l.net cmd = some (.act .opener a) ∧ End.Step x.client a x'.client ps)
      ∨ ∃ k, End.Delivered x.server x.client k x'.client := by
  obtain ⟨-, ⟨-, heq⟩ | ⟨nl, hnet, hchan⟩⟩ := step_cases hs
  · refine .inl ?_
    rw [client, heq]
    rfl
  · rcases h.net.end_cases (Logged.net_step hchan) .opener with
      heq | ⟨a, ps, rfl, hstep⟩ | ⟨k, -, -, hd⟩
    · exact .inl heq
    · exact .inr (.inl ⟨a, ps, hnet, hstep⟩)
    · exact .inr (.inr ⟨k, hd⟩)

/-- A step that is none of the client's. -/
theorem record_of_net (hs : x.step cmd l = some x')
    (hl : ∀ a, l.net cmd ≠ some (.act .opener a)) :
    x'.chan.taken .opener = x.chan.taken .opener ∧ x'.chan.asked .opener = x.chan.asked .opener := by
  obtain ⟨-, ⟨-, heq⟩ | ⟨nl, hnet, hchan⟩⟩ := step_cases hs
  · rw [heq]
    exact ⟨rfl, rfl⟩
  · refine Logged.record_of_ne hchan fun a ha => hl a ?_
    rw [hnet, ha]

/-- The client takes a request where `wait` does. -/
theorem taken_of_step (hs : x.step cmd l = some x') (hl : l ≠ .takeRequest) :
    x'.chan.taken .opener = x.chan.taken .opener := by
  by_cases hact : ∃ a, l.net cmd = some (.act .opener a)
  · obtain ⟨a, ha⟩ := hact
    obtain ⟨-, ⟨hnone, -⟩ | ⟨nl, hnet, hchan⟩⟩ := step_cases hs
    · rw [ha] at hnone
      cases hnone
    · obtain rfl := Option.some.inj (ha.symm.trans hnet)
      have htaken := Logged.taken_of_act hchan
      have hnil : (x.chan.net.ends .opener).takes a = [] := by
        cases l <;> first | exact absurd rfl hl | cases ha
        all_goals rfl
      rw [htaken, hnil, List.append_nil]
  · exact (record_of_net hs fun a ha => hact ⟨a, ha⟩).1

/-- The client asks for something where `Start` does. -/
theorem asked_of_step (hs : x.step cmd l = some x') (hl : l ≠ .exec) :
    x'.chan.asked .opener = x.chan.asked .opener := by
  by_cases hact : ∃ a, l.net cmd = some (.act .opener a)
  · obtain ⟨a, ha⟩ := hact
    obtain ⟨-, ⟨hnone, -⟩ | ⟨nl, hnet, hchan⟩⟩ := step_cases hs
    · rw [ha] at hnone
      cases hnone
    · obtain rfl := Option.some.inj (ha.symm.trans hnet)
      obtain ⟨ps, hstep, hasked⟩ := Logged.asked_of_act hchan
      have hne : ∀ r, a ≠ .sendRequest r := by
        rintro r rfl
        cases l <;> first | exact absurd rfl hl | cases ha
      rw [hasked, End.asks_of_step hstep hne, List.append_nil]
  · exact (record_of_net hs fun a ha => hact ⟨a, ha⟩).2

theorem Inv.writers_step (h : x.Inv cmd) (hs : x.step cmd l = some x') (st : Stream) :
    (x'.client.lane st).writer = .idle := by
  rcases client_cases h.chan hs with heq | ⟨a, ps, hnet, hstep⟩ | ⟨k, hd⟩
  · rw [heq]
    exact h.writers st
  · refine End.writer_idle_of_step hstep ?_ h.writers st
    rintro s d rfl
    cases l <;> cases hnet
  · rw [hd.keeps.1]
    exact h.writers st

/-- What was read of a stream, in a step that does not read it. -/
theorem Inv.heard_of_ne (h : x.Inv cmd) (hs : x.step cmd l = some x') {st : Stream}
    (hl : l ≠ .read st) :
    (x'.client.lane st).got = (x.client.lane st).got
      ∧ (x'.client.lane st).sawEOF = (x.client.lane st).sawEOF := by
  rcases client_cases h.chan hs with heq | ⟨a, ps, hnet, hstep⟩ | ⟨k, hd⟩
  · rw [heq]
    exact ⟨rfl, rfl⟩
  · refine End.heard_of_step hstep ?_
    rintro k rfl
    cases l <;> cases hnet
    exact hl rfl
  · rw [hd.keeps.1]
    exact ⟨rfl, rfl⟩

/-- **What the goroutine that copies a stream keeps.** -/
theorem Inv.output_step (h : x.Inv cmd) (hs : x.step cmd l = some x') (st : Stream) :
    (x'.client.lane st).got = dataOf x'.session.output st ++ (x'.session.copy st).held
      ∧ (x'.session.copy st = .done → (x'.client.lane st).sawEOF = true) := by
  have hout := h.output st
  have hsaw := h.saw st
  by_cases hl : l = .read st
  · -- it reads
    subst hl
    obtain ⟨hsess, ⟨hnone, -⟩ | ⟨nl, hnet, hchan⟩⟩ := step_cases hs
    · cases hnone
    · obtain rfl := Option.some.inj hnet
      obtain ⟨ps, hstep, -⟩ := Logged.asked_of_act hchan
      generalize x'.session = s' at hsess ⊢
      cases hsess with
      | read _ r b hc hb =>
        rw [hc] at hout
        rcases End.lane_of_read hstep hb with ⟨d, rfl, hgot⟩ | ⟨rfl, hgot, heof⟩
        · refine ⟨?_, fun hd => ?_⟩
          · rw [client, hgot]
            show (x.client.lane st).got ++ d = dataOf x.session.output st
              ++ ((x.session.setCopy st (.holding d)).copy st).held
            rw [Session.copy_setCopy, if_pos rfl, hout, List.append_assoc]
            rfl
          · have hd' : (x.session.setCopy st (.holding d)).copy st = .done := hd
            rw [Session.copy_setCopy, if_pos rfl] at hd'
            cases hd'
        · refine ⟨?_, fun _ => heof⟩
          rw [client, hgot]
          show (x.client.lane st).got = dataOf x.session.output st
            ++ ((x.session.setCopy st .done).copy st).held
          rw [Session.copy_setCopy, if_pos rfl, hout]
          rfl
  · -- it writes, is started, or does nothing
    obtain ⟨hgot, heof⟩ := h.heard_of_ne hs hl
    rw [hgot, heof]
    have hsess := (step_cases hs).1
    have hwf := h.wf
    generalize x'.session = s' at hsess ⊢
    cases hsess with
    | connect m hr =>
      rcases x.session.connected_cases m with heq | ⟨err, heq⟩ <;> rw [heq] <;>
        exact ⟨hout, hsaw⟩
    | exec hr =>
      rcases x.session.ask_cases cmd x.client with heq | ⟨err, heq⟩ <;> rw [heq] <;>
        exact ⟨hout, hsaw⟩
    | reply m hr =>
      rcases x.session.answered_cases cmd m with heq | ⟨err, heq⟩
      · rw [heq]
        have hidle := hwf.early (by rw [hr]; rfl) st
        rw [hidle] at hout
        exact ⟨hout, nofun⟩
      · rw [heq]
        exact ⟨hout, hsaw⟩
    | read st' r b hc hb =>
      have hne : st ≠ st' := by
        rintro rfl
        exact hl rfl
      have hcopy : ∀ c, (x.session.setCopy st' c).copy st = x.session.copy st := by
        intro c
        rw [Session.copy_setCopy, if_neg hne]
      cases r with
      | data d =>
        rw [Session.copied, hcopy]
        exact ⟨hout, hsaw⟩
      | eof =>
        rw [Session.copied, hcopy]
        exact ⟨hout, hsaw⟩
    | write st' d hc =>
      show (x.client.lane st).got = dataOf (x.session.output ++ [(st', d)]) st
          ++ ((x.session.setCopy st' .reading).copy st).held
        ∧ ((x.session.setCopy st' .reading).copy st = .done → _)
      rw [Session.copy_setCopy, dataOf_append, dataOf_cons, dataOf_nil, List.append_nil]
      by_cases hst : st = st'
      · subst hst
        rw [if_pos rfl, if_pos rfl, hout, hc]
        exact ⟨(List.append_nil _).symm, nofun⟩
      · rw [if_neg hst, if_neg (Ne.symm hst), List.append_nil]
        exact ⟨hout, hsaw⟩
    | _ => exact ⟨hout, hsaw⟩

/-- **What `wait` keeps.** -/
theorem Inv.wait_step (h : x.Inv cmd) (hs : x.step cmd l = some x') :
    Session.Follows (x'.chan.taken .opener) x'.client x'.session.wait := by
  -- what was closed and empty is so still
  have hended : x.client.ch.closedQueues = true → x.client.ch.incomingRequests.buf = [] →
      x'.client.ch.closedQueues = true ∧ x'.client.ch.incomingRequests.buf = [] := by
    intro hq hb
    obtain ⟨-, ⟨-, heq⟩ | ⟨nl, -, hchan⟩⟩ := step_cases hs
    · rw [client, heq]
      exact ⟨hq, hb⟩
    · exact h.chan.ended_of_step hchan hq hb
  have hfollow := h.wait
  obtain ⟨hsess, hchan⟩ := step_cases hs
  by_cases hl : l = .takeRequest
  · subst hl
    rcases hchan with ⟨hnone, -⟩ | ⟨nl, hnet, hchan⟩
    · cases hnone
    · obtain rfl := Option.some.inj hnet
      have htaken := Logged.taken_of_act hchan
      generalize x'.session = s' at hsess ⊢
      cases hsess with
      | takeRequest wm r q hw hq =>
        rw [hw] at hfollow
        have hr : (x.chan.net.ends .opener).takes .takeRequest = [r] := by
          show ((x.client.ch.incomingRequests.recv).map Prod.fst).toList = [r]
          rw [hq]
          rfl
        rw [htaken, hr]
        exact hfollow.followed
  · rw [taken_of_step hs hl]
    generalize x'.session = s' at hsess ⊢
    cases hsess with
    | connect m hr =>
      rcases x.session.connected_cases m with heq | ⟨err, heq⟩
      · rw [heq]
        rw [h.wf.opening hr] at hfollow
        have hnil : x.chan.taken .opener = [] := hfollow
        rw [hnil]
        exact fun more => rfl
      · rw [heq]
        exact hfollow.congr hended
    | exec hr =>
      rcases x.session.ask_cases cmd x.client with heq | ⟨err, heq⟩ <;> rw [heq] <;>
        exact hfollow.congr hended
    | reply m hr =>
      rcases x.session.answered_cases cmd m with heq | ⟨err, heq⟩ <;> rw [heq] <;>
        exact hfollow.congr hended
    | read st r b => cases r <;> exact hfollow.congr hended
    | takeRequest => exact absurd rfl hl
    | ackRequest wm hw =>
      rw [hw] at hfollow
      exact hfollow
    | endRequests wm hw hq hb =>
      rw [hw] at hfollow
      have hnil := hfollow []
      rw [List.append_nil] at hnil
      exact .inr ⟨hnil, hended hq hb⟩
    | _ => exact hfollow.congr hended

/-- **What is asked of the server.** -/
theorem Inv.asked_step (h : x.Inv cmd) (hs : x.step cmd l = some x') :
    x'.chan.asked .opener = [] ∨ (Session.unasked x'.session.run = false
      ∧ x'.chan.asked .opener = [execRequest cmd]
      ∧ ∃ id, ((Pkt.request (execRequest cmd)).bytes id).length ≤ maxPacket) := by
  obtain ⟨hsess, hchan⟩ := step_cases hs
  by_cases hl : l = .exec
  · subst hl
    rcases hchan with ⟨hnone, -⟩ | ⟨nl, hnet, hchan⟩
    · cases hnone
    · obtain rfl := Option.some.inj hnet
      obtain ⟨ps, hstep, hasked⟩ := Logged.asked_of_act hchan
      generalize x'.session = s' at hsess ⊢
      cases hsess with
      | exec hr =>
        have hnil : x.chan.asked .opener = [] := by
          rcases h.asked with hnil | ⟨hun, -⟩
          · exact hnil
          · rw [hr] at hun
            cases hun
        rw [hasked, hnil, List.nil_append]
        rcases End.asks_of_sendRequest hstep with hnone | ⟨hone, hlen⟩
        · exact .inl hnone
        · refine .inr ⟨?_, hone, _, hlen⟩
          rcases x.session.ask_cases cmd x.client with heq | ⟨err, heq⟩ <;> rw [heq] <;> rfl
  · rw [asked_of_step hs hl]
    rcases h.asked with hnil | ⟨hun, hone⟩
    · exact .inl hnil
    · refine .inr ⟨?_, hone⟩
      generalize x'.session = s' at hsess ⊢
      cases hsess with
      | connect m hr =>
        rw [hr] at hun
        cases hun
      | exec hr => exact absurd rfl hl
      | reply m hr =>
        rcases x.session.answered_cases cmd m with heq | ⟨err, heq⟩ <;> rw [heq] <;> rfl
      | read st r b => cases r <;> exact hun
      | noReply | takeStatus | collect => rfl
      | _ => exact hun

theorem Inv.step (h : x.Inv cmd) (hs : x.step cmd l = some x') : x'.Inv cmd := by
  obtain ⟨hsess, hchan⟩ := step_cases hs
  refine ⟨?_, h.wf.step hsess, h.writers_step hs, fun st => (h.output_step hs st).1,
    fun st => (h.output_step hs st).2, h.wait_step hs, h.asked_step hs⟩
  rcases hchan with ⟨-, heq⟩ | ⟨nl, -, hchan⟩
  · rw [heq]
    exact h.chan
  · exact h.chan.step hchan

theorem inv_start (cmd : Bytes) (id id' : UInt32) : (sessions cmd id id').start.Inv cmd :=
  ⟨Logged.inv_start id id', ⟨fun _ _ => rfl, fun _ => rfl, nofun, nofun⟩, fun _ => rfl,
    fun _ => rfl, nofun, rfl, .inl rfl⟩

theorem inv_of_reachable {id id' : UInt32} (h : (sessions cmd id id').Reachable x) : x.Inv cmd :=
  Machine.reachable_rec (P := Inv cmd) (inv_start cmd id id') (fun _ _ _ h hs => h.step hs) h

/-- What the server sent is what was written, and what is still to be. -/
theorem Inv.sent_eq (h : x.Inv cmd) (st : Stream) : ∃ rest,
    (x.server.lane st).sent = dataOf x.session.output st ++ rest := by
  obtain ⟨lost, hb, -⟩ := (h.chan.net.flows .acceptor).balanced
  have hsent : (x.server.lane st).sent = (x.client.lane st).got ++ _ := hb.sent st
  rw [hsent, h.output st, List.append_assoc]
  exact ⟨_, rfl⟩

end Remote

/-! ## What the task sees -/

/-- A command that says `hi` and succeeds. -/
def hiSchedule : List SessionLabel :=
  [.deliver .acceptor, .handle, .connect, .exec, .deliver .opener, .server .handle,
    .server .takeRequest, .server (.ackRequest true), .deliver .acceptor, .handle, .reply,
    .server (.write .stdout (ascii "hi")), .server (.reserve .stdout), .server (.send .stdout),
    .server (.sendRequest ⟨exitStatusType, false, [0, 0, 0, 0]⟩), .server .closeWrite,
    .server .sendEOF, .server .close, .deliver .acceptor, .handle, .deliver .acceptor, .handle,
    .takeRequest, .deliver .acceptor, .handle, .handle, .deliver .acceptor, .handle, .handle,
    .handle, .handle, .handle, .handle, .handle, .read .stdout, .addWindow .stdout,
    .sendAdjust .stdout, .write .stdout, .read .stdout, .read .stderr, .closeWrite, .sendEOF,
    .endRequests, .takeStatus, .collect]

/-- **At any time the output is an initial part of what was sent.** Whatever
the server does as the other end of the channel, and however the goroutines
take turns, what the file of the task has of a stream is the beginning of what
the server has sent on it. -/
theorem session_output (cmd : Bytes) (id id' : UInt32) {x : Remote}
    (h : (sessions cmd id id').Reachable x) (st : Stream) :
    dataOf x.session.output st <+: (x.server.lane st).sent := by
  obtain ⟨rest, hrest⟩ := (Remote.inv_of_reachable h).sent_eq st
  exact ⟨rest, hrest.symm⟩

set_option maxRecDepth 4000 in
theorem session_output_hi : ∃ x, (sessions (ascii "echo hi") 0 7).Reachable x
    ∧ dataOf x.session.output .stdout = ascii "hi"
    ∧ dataOf x.session.output .stdout <+: (x.server.lane .stdout).sent := by
  have hrun : (sessions (ascii "echo hi") 0 7).Reachable _ := ⟨hiSchedule, rfl⟩
  exact ⟨_, hrun, rfl, session_output (ascii "echo hi") 0 7 hrun .stdout⟩

/-- **The server is asked for the command, and for nothing else**, at most
once, and it reads the text of the command as it was given. -/
theorem session_exec (cmd : Bytes) (id id' : UInt32) {x : Remote}
    (h : (sessions cmd id id').Reachable x) :
    (x.chan.taken .acceptor).length ≤ 1
      ∧ ∀ r ∈ x.chan.taken .acceptor, r.type = ascii "exec" ∧ r.wantReply = true
        ∧ unmarshal execMsg r.payload = .ok (cmd, ()) := by
  have hinv := Remote.inv_of_reachable h
  have hreq := hinv.chan.requests .opener
  have htaken : x.chan.taken .acceptor <+: x.chan.asked .opener := ⟨_, hreq.symm⟩
  rcases hinv.asked with hnil | ⟨-, hone, num, hlen⟩
  · rw [hnil] at htaken
    rw [List.prefix_nil.mp htaken]
    exact ⟨Nat.zero_le 1, nofun⟩
  · rw [hone] at htaken
    refine ⟨htaken.length_le, fun r hr => ?_⟩
    obtain rfl : r = execRequest cmd := List.mem_singleton.mp (htaken.subset hr)
    have hpayload : (marshal execMsg (cmd, ())).length ≤ maxPacket := by
      rw [bytes_request, List.length_cons] at hlen
      simp only [List.length_append] at hlen
      exact le_trans (by show (execRequest cmd).payload.length ≤ _; omega) hlen
    exact ⟨rfl, rfl, unmarshal_marshal ⟨trivial, trivial⟩ (List.cons_ne_nil _ _)
      (lt_of_le_of_lt hpayload (by decide))⟩

set_option maxRecDepth 4000 in
theorem session_exec_hi : ∃ x, (sessions (ascii "echo hi") 0 7).Reachable x
    ∧ x.chan.taken .acceptor = [execRequest (ascii "echo hi")]
    ∧ (x.chan.taken .acceptor).length ≤ 1 := by
  have hrun : (sessions (ascii "echo hi") 0 7).Reachable _ := ⟨hiSchedule, rfl⟩
  exact ⟨_, hrun, rfl, (session_exec (ascii "echo hi") 0 7 hrun).1⟩

/-- **The server does not end a stream while it writes.** -/
def PoliteServer (x : Remote) : SessionLabel → Prop
  | .server a => Polite x.chan.net (.act .acceptor a)
  | _ => True

instance (x : Remote) (l : SessionLabel) : Decidable (PoliteServer x l) :=
  match l with
  | .server a => inferInstanceAs (Decidable (Polite x.chan.net (.act .acceptor a)))
  | .connect | .exec | .reply | .noReply | .closeWrite | .sendEOF | .read _ | .addWindow _
  | .sendAdjust _ | .write _ | .takeRequest | .ackRequest | .endRequests | .takeStatus
  | .collect | .closeSession | .handle | .deliver _ => isTrue trivial

/-- The client does not either, since it writes nothing. -/
theorem Remote.Inv.polite {cmd : Bytes} {x : Remote} {l : SessionLabel} {nl : NetLabel}
    (h : x.Inv cmd) (hl : PoliteServer x l) (hnet : l.net cmd = some nl) :
    Polite x.chan.net nl := by
  cases l <;> cases hnet
  all_goals first | exact h.writers | exact hl

theorem Remote.polite_step {cmd : Bytes} {x x' : Remote} {l : SessionLabel}
    (h : x.Inv cmd ∧ x.chan.net.PoliteInv) (hl : PoliteServer x l)
    (hs : x.step cmd l = some x') : x'.Inv cmd ∧ x'.chan.net.PoliteInv := by
  refine ⟨h.1.step hs, ?_⟩
  obtain ⟨-, ⟨-, heq⟩ | ⟨nl, hnet, hchan⟩⟩ := step_cases hs
  · rw [heq]
    exact h.2
  · exact h.2.step (h.1.polite hl hnet) (Logged.net_step hchan)

end Ssh
