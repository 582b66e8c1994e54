import Sesh.CreditFlow
import Sesh.SshChannel

/-!
# One end of a channel

An end of a channel is the channel and the goroutines that work on it: one
that writes and one that reads for each of the two streams, whoever closes it
or sends a request, and the one that handles the packets of the peer. They
share the channel under several locks, so that what is one call in the source
is several steps here. A write takes credit from the window, and only then
takes the lock under which packets are sent; a read takes from the buffer,
then adds to the window, and then sends the adjustment (`ssh/channel.go`).

What a step can do is said once, by `Ssh.End.Step`. What it does to the
accounts of the two directions follows from that (`Ssh.End.Effect`): it is a
move of the sender's account of one direction, or of the receiver's account
of the other one, or of neither.

An end that is alone with a peer that sends what it likes is the machine
`Ssh.lone`. Its buffers never hold more than the window it granted, and the
window never grows beyond what it was (`lone_bounded`), so that the addition
in `adjustWindow`, which nothing guards, cannot overflow.
-/

namespace Ssh

open Channel CreditFlow

instance : Fintype Stream := ⟨{.stdout, .stderr}, fun s => by cases s <;> decide⟩

/-- The data in a packet. -/
def Channel.Pkt.chunk : Pkt → Option (Stream × Bytes)
  | .data s d => some (s, d)
  | _ => none

/-- The credit in a packet. -/
def Channel.Pkt.credit : Pkt → Option ℕ
  | .windowAdjust n => some n
  | .confirm m => some (confirmed m).2.1.toNat
  | _ => none

/-! ## The goroutines -/

/-- Where a call of `WriteExtended` stands: in its loop with the data that is
left, or with credit for the first `space` bytes of it. -/
inductive WriterPc
  | idle
  | loop (data : Bytes)
  | ready (space : ℕ) (data : Bytes)
  deriving DecidableEq, Repr

/-- Where a call of `ReadExtended` stands: it has read `n` bytes, and has or
has not added them to the window. -/
inductive ReaderPc
  | idle
  | owes (n : ℕ)
  | granted (n : ℕ)
  deriving DecidableEq, Repr

/-- **The goroutines of a stream**, with what they have sent and read. -/
structure Lane where
  writer : WriterPc
  reader : ReaderPc
  /-- What was sent so far. -/
  sent : Bytes
  /-- What was read so far. -/
  got : Bytes
  /-- Whether a read has returned the end. -/
  sawEOF : Bool
  deriving DecidableEq, Repr

/-- **One end of a channel.** -/
structure End where
  ch : Channel
  lane : Stream → Lane
  /-- What is still to be done for the packet in hand. -/
  todo : List MuxAct
  /-- The error that ended the loop that reads packets. -/
  failed : Option GoString
  /-- Whether the channel was taken off the list. -/
  removed : Bool
  /-- How many calls of `CloseWrite` have still to send their message. -/
  eofDue : ℕ
  /-- How many bytes came with a code that nobody reads. -/
  discarded : ℕ

namespace End

/-- A change to the goroutines of a stream. -/
def setLane (e : End) (s : Stream) (l : Lane) : End :=
  { e with lane := Function.update e.lane s l }

/-- A writer moves. -/
def setWriter (e : End) (s : Stream) (w : WriterPc) : End :=
  e.setLane s { e.lane s with writer := w }

/-- A reader moves. -/
def setReader (e : End) (s : Stream) (r : ReaderPc) : End :=
  e.setLane s { e.lane s with reader := r }

/-- The test `packet[0] == msgChannelClose`. -/
def isClose : Pkt → Bool
  | .close => true
  | _ => false

/-- `writePacket`: nothing is sent behind a close. -/
def writePacket (e : End) (p : Pkt) : End × List Pkt :=
  if e.ch.sentClose then (e, [])
  else ({ e with ch := { e.ch with sentClose := isClose p } }, [p])

/-- The steps of an end. -/
inductive Act
  /-- A call of `WriteExtended`. -/
  | write (s : Stream) (data : Bytes)
  | reserve (s : Stream)
  | send (s : Stream)
  /-- A read with room for `k` bytes. -/
  | read (s : Stream) (k : ℕ)
  | addWindow (s : Stream)
  | sendAdjust (s : Stream)
  | closeWrite
  | sendEOF
  | close
  | sendRequest (r : ChannelRequest)
  | ackRequest (ok : Bool)
  /-- A message is taken from `msg`. -/
  | takeMsg
  /-- A request is taken from `incomingRequests`. -/
  | takeRequest
  /-- The next action for the packet in hand. -/
  | handle

/-- Where a write stands that has `data` left. -/
def afterSend : Bytes → WriterPc
  | [] => .idle
  | b :: data => .loop (b :: data)

/-- Where a read stands that has taken `n` bytes. -/
def afterRead (n : ℕ) : ReaderPc := if 0 < n then .owes n else .idle

/-- One action for the packet in hand, `none` where it waits. -/
def handleAct (e : End) : MuxAct → Option (End × List Pkt)
  | .store 0 data => some ({ e with ch := e.ch.setBuffer .stdout (e.ch.pending.write data) }, [])
  | .store 1 data => some ({ e with ch := e.ch.setBuffer .stderr (e.ch.extPending.write data) }, [])
  | .store (_ + 2) data => some ({ e with discarded := e.discarded + data.length }, [])
  | .eof s => some ({ e with ch := e.ch.setBuffer s (e.ch.buffer s).eof }, [])
  | .sendClose => some (e.writePacket .close)
  | .remove id => some ({ e with removed := e.removed || id == e.ch.localId }, [])
  | .closeQueues => some ({ e with ch := { e.ch with closedQueues := true } }, [])
  | .setSentClose => some ({ e with ch := { e.ch with sentClose := true } }, [])
  | .closeWindow => some ({ e with ch := { e.ch with remoteWin := e.ch.remoteWin.close } }, [])
  | .post m => (e.ch.msg.send m).map (fun q => ({ e with ch := { e.ch with msg := q } }, []))
  | .request r =>
    (e.ch.incomingRequests.send r).map
      (fun q => ({ e with ch := { e.ch with incomingRequests := q } }, []))

/-- **A step of an end**, with the packets it sends; `none` where it is not
enabled. -/
def act (e : End) : Act → Option (End × List Pkt)
  | .write s data =>
    match (e.lane s).writer with
    | .idle =>
      if !e.ch.decided then none
      else if e.ch.sentEOF then some (e, [])
      else some (e.setWriter s (afterSend data), [])
    | _ => none
  | .reserve s =>
    match (e.lane s).writer with
    | .loop data =>
      match e.ch.remoteWin.reserve (min e.ch.maxRemotePayload (data.length % 2 ^ 32)) with
      | none => none
      -- a closed window ends the call
      | some (_, true, w) => some ({ e with ch := { e.ch with remoteWin := w } }.setWriter s .idle, [])
      | some (n, false, w) =>
        some ({ e with ch := { e.ch with remoteWin := w } }.setWriter s (.ready n data), [])
    | _ => none
  | .send s =>
    match (e.lane s).writer with
    | .ready n data =>
      match e.writePacket (.data s (data.take n)) with
      -- `io.EOF` ends the call
      | (e, []) => some (e.setWriter s .idle, [])
      | (e, sent) =>
        some (e.setLane s { e.lane s with
          writer := afterSend (data.drop n)
          sent := (e.lane s).sent ++ data.take n }, sent)
    | _ => none
  | .read s k =>
    match (e.lane s).reader with
    | .idle =>
      if !e.ch.decided then none
      else
        match (e.ch.buffer s).read k with
        | none => none
        | some (.data d, b) =>
          some ({ e with ch := e.ch.setBuffer s b }.setLane s { e.lane s with
            reader := afterRead d.length
            got := (e.lane s).got ++ d }, [])
        | some (.eof, b) =>
          some ({ e with ch := e.ch.setBuffer s b }.setLane s { e.lane s with sawEOF := true }, [])
    | _ => none
  | .addWindow s =>
    match (e.lane s).reader with
    | .owes n =>
      some ({ e with ch := { e.ch with myWindow := (e.ch.myWindow + n) % 2 ^ 32 } }.setReader s
        (.granted n), [])
    | _ => none
  | .sendAdjust s =>
    match (e.lane s).reader with
    | .granted n =>
      match e.writePacket (.windowAdjust n) with
      | (e, sent) => some (e.setReader s .idle, sent)
    | _ => none
  | .closeWrite =>
    if !e.ch.decided then none
    else some ({ e with ch := { e.ch with sentEOF := true }, eofDue := e.eofDue + 1 }, [])
  | .sendEOF =>
    match e.eofDue with
    | 0 => none
    | n + 1 => some ({ e with eofDue := n }.writePacket .eof)
  | .close => if !e.ch.decided then none else some (e.writePacket .close)
  | .sendRequest r =>
    if !e.ch.decided then none
    -- the connection refuses what is too large to be written, and carries the rest
    else if maxPacket < ((Pkt.request r).bytes e.ch.remoteId).length then some (e, [])
    else some (e.writePacket (.request r))
  | .ackRequest ok => if !e.ch.decided then none else some (e.writePacket (.reply ok))
  | .takeMsg => e.ch.msg.recv.map (fun (_, q) => ({ e with ch := { e.ch with msg := q } }, []))
  | .takeRequest =>
    e.ch.incomingRequests.recv.map
      (fun (_, q) => ({ e with ch := { e.ch with incomingRequests := q } }, []))
  | .handle =>
    match e.todo with
    | [] => none
    | a :: todo => { e with todo }.handleAct a

/-- What becomes of an end when the loop that reads packets ends: the channel
is closed, unless it is off the list. -/
def fail (e : End) (err : GoString) : End :=
  { e with failed := some err, todo := if e.removed then [] else closeActs }

/-- **A packet arrives** (`onePacket`). The channel is the only one of the
connection: one that the peer asks for itself is not followed. -/
def deliver (e : End) (packet : Bytes) : Option End :=
  if e.failed.isSome || !e.todo.isEmpty then none
  else
    match packet with
    | [] => none
    | opCode :: body =>
      match connectionPacket opCode body with
      | some (.error err) => some (e.fail err)
      | some (.ok ()) => some e
      | none =>
        if packet.length < 5 then some (e.fail (parseError opCode))
        else if e.removed || packetId packet ≠ e.ch.localId then
          some (e.fail ("ssh: invalid channel ".toList ++ showNat (packetId packet).toNat))
        else
          match e.ch.handlePacket opCode body with
          | .error err => some (e.fail err)
          | .ok (ch, todo) => some { e with ch, todo }

/-! ## What a step can do -/

theorem writePacket_of_closed {e : End} (h : e.ch.sentClose = true) (p : Pkt) :
    e.writePacket p = (e, []) := if_pos h

theorem writePacket_of_open {e : End} (h : e.ch.sentClose = false) {p : Pkt}
    (hp : isClose p = false) : e.writePacket p = (e, [p]) := by
  rw [writePacket, if_neg (by rw [h]; exact Bool.false_ne_true), hp, ← h]

theorem writePacket_close {e : End} (h : e.ch.sentClose = false) :
    e.writePacket .close = ({ e with ch := { e.ch with sentClose := true } }, [.close]) :=
  if_neg (by rw [h]; exact Bool.false_ne_true)

/-- **What the goroutine that handles packets can do** in one action. -/
inductive Handled (e : End) : MuxAct → End → List Pkt → Prop
  | store (s : Stream) (data : Bytes) : Handled e (.store s.extendedCode data)
      { e with ch := e.ch.setBuffer s ((e.ch.buffer s).write data) } []
  | discard (n : ℕ) (data : Bytes) : Handled e (.store (n + 2) data)
      { e with discarded := e.discarded + data.length } []
  | eof (s : Stream) : Handled e (.eof s)
      { e with ch := e.ch.setBuffer s (e.ch.buffer s).eof } []
  | sendClose (h : e.ch.sentClose = false) : Handled e .sendClose
      { e with ch := { e.ch with sentClose := true } } [.close]
  | sentClose (h : e.ch.sentClose = true) : Handled e .sendClose e []
  | remove (id : UInt32) : Handled e (.remove id)
      { e with removed := e.removed || id == e.ch.localId } []
  | closeQueues : Handled e .closeQueues { e with ch := { e.ch with closedQueues := true } } []
  | setSentClose : Handled e .setSentClose { e with ch := { e.ch with sentClose := true } } []
  | closeWindow : Handled e .closeWindow
      { e with ch := { e.ch with remoteWin := e.ch.remoteWin.close } } []
  | post (m : Message) (q : Chan Message 16) (h : e.ch.msg.send m = some q) : Handled e (.post m)
      { e with ch := { e.ch with msg := q } } []
  | request (r : ChannelRequest) (q : Chan ChannelRequest 16)
      (h : e.ch.incomingRequests.send r = some q) : Handled e (.request r)
      { e with ch := { e.ch with incomingRequests := q } } []

/-- **What a step can do.** -/
inductive Step (e : End) : Act → End → List Pkt → Prop
  | writeEnded (s : Stream) (data : Bytes) (hw : (e.lane s).writer = .idle)
      (hd : e.ch.decided = true) (hs : e.ch.sentEOF = true) : Step e (.write s data) e []
  | write (s : Stream) (data : Bytes) (hw : (e.lane s).writer = .idle)
      (hd : e.ch.decided = true) (hs : e.ch.sentEOF = false) :
      Step e (.write s data) (e.setWriter s (afterSend data)) []
  | reserve (s : Stream) (data : Bytes) (n : ℕ) (w : Window)
      (hw : (e.lane s).writer = .loop data)
      (hr : e.ch.remoteWin.reserve (min e.ch.maxRemotePayload (data.length % 2 ^ 32))
        = some (n, false, w)) :
      Step e (.reserve s)
        ({ e with ch := { e.ch with remoteWin := w } }.setWriter s (.ready n data)) []
  | refuse (s : Stream) (data : Bytes) (n : ℕ) (w : Window)
      (hw : (e.lane s).writer = .loop data)
      (hr : e.ch.remoteWin.reserve (min e.ch.maxRemotePayload (data.length % 2 ^ 32))
        = some (n, true, w)) :
      Step e (.reserve s) ({ e with ch := { e.ch with remoteWin := w } }.setWriter s .idle) []
  | send (s : Stream) (n : ℕ) (data : Bytes) (hw : (e.lane s).writer = .ready n data)
      (hc : e.ch.sentClose = false) :
      Step e (.send s) (e.setLane s { e.lane s with
        writer := afterSend (data.drop n)
        sent := (e.lane s).sent ++ data.take n }) [.data s (data.take n)]
  | giveUp (s : Stream) (n : ℕ) (data : Bytes) (hw : (e.lane s).writer = .ready n data)
      (hc : e.ch.sentClose = true) : Step e (.send s) (e.setWriter s .idle) []
  | read (s : Stream) (k : ℕ) (d : Bytes) (b : Buffer) (hr : (e.lane s).reader = .idle)
      (hd : e.ch.decided = true) (hb : (e.ch.buffer s).read k = some (.data d, b)) :
      Step e (.read s k) ({ e with ch := e.ch.setBuffer s b }.setLane s { e.lane s with
        reader := afterRead d.length
        got := (e.lane s).got ++ d }) []
  | readEOF (s : Stream) (k : ℕ) (b : Buffer) (hr : (e.lane s).reader = .idle)
      (hd : e.ch.decided = true) (hb : (e.ch.buffer s).read k = some (.eof, b)) :
      Step e (.read s k)
        ({ e with ch := e.ch.setBuffer s b }.setLane s { e.lane s with sawEOF := true }) []
  | addWindow (s : Stream) (n : ℕ) (hr : (e.lane s).reader = .owes n) :
      Step e (.addWindow s)
        ({ e with ch := { e.ch with myWindow := (e.ch.myWindow + n) % 2 ^ 32 } }.setReader s
          (.granted n)) []
  | announce (s : Stream) (n : ℕ) (hr : (e.lane s).reader = .granted n)
      (hc : e.ch.sentClose = false) :
      Step e (.sendAdjust s) (e.setReader s .idle) [.windowAdjust n]
  | withhold (s : Stream) (n : ℕ) (hr : (e.lane s).reader = .granted n)
      (hc : e.ch.sentClose = true) : Step e (.sendAdjust s) (e.setReader s .idle) []
  | closeWrite (hd : e.ch.decided = true) : Step e .closeWrite
      { e with ch := { e.ch with sentEOF := true }, eofDue := e.eofDue + 1 } []
  | sendEOF (n : ℕ) (hn : e.eofDue = n + 1) (ps : List Pkt)
      (hps : ps = if e.ch.sentClose then [] else [.eof]) :
      Step e .sendEOF { e with eofDue := n } ps
  | close (hd : e.ch.decided = true) (hc : e.ch.sentClose = false) : Step e .close
      { e with ch := { e.ch with sentClose := true } } [.close]
  | closedAlready (hd : e.ch.decided = true) (hc : e.ch.sentClose = true) : Step e .close e []
  | tooLarge (r : ChannelRequest) (hd : e.ch.decided = true)
      (hr : maxPacket < ((Pkt.request r).bytes e.ch.remoteId).length) :
      Step e (.sendRequest r) e []
  | sendRequest (r : ChannelRequest) (hd : e.ch.decided = true)
      (hr : ((Pkt.request r).bytes e.ch.remoteId).length ≤ maxPacket) (ps : List Pkt)
      (hps : ps = if e.ch.sentClose then [] else [.request r]) : Step e (.sendRequest r) e ps
  | ackRequest (ok : Bool) (hd : e.ch.decided = true) (ps : List Pkt)
      (hps : ps = if e.ch.sentClose then [] else [.reply ok]) : Step e (.ackRequest ok) e ps
  | takeMsg (m : Message) (q : Chan Message 16) (hq : e.ch.msg.recv = some (m, q)) :
      Step e .takeMsg { e with ch := { e.ch with msg := q } } []
  | takeRequest (r : ChannelRequest) (q : Chan ChannelRequest 16)
      (hq : e.ch.incomingRequests.recv = some (r, q)) :
      Step e .takeRequest { e with ch := { e.ch with incomingRequests := q } } []
  | handle (a : MuxAct) (todo : List MuxAct) (e' : End) (ps : List Pkt)
      (ht : e.todo = a :: todo) (h : Handled { e with todo } a e' ps) : Step e .handle e' ps

variable {e e' : End} {ps : List Pkt}

theorem handled_of_handleAct {a : MuxAct} (h : e.handleAct a = some (e', ps)) :
    Handled e a e' ps := by
  match a with
  | .store 0 data =>
    obtain ⟨rfl, rfl⟩ := Prod.mk.inj (Option.some.inj h)
    exact .store .stdout data
  | .store 1 data =>
    obtain ⟨rfl, rfl⟩ := Prod.mk.inj (Option.some.inj h)
    exact .store .stderr data
  | .store (n + 2) data =>
    obtain ⟨rfl, rfl⟩ := Prod.mk.inj (Option.some.inj h)
    exact .discard n data
  | .eof s =>
    obtain ⟨rfl, rfl⟩ := Prod.mk.inj (Option.some.inj h)
    exact .eof s
  | .sendClose =>
    have h' : e.writePacket .close = (e', ps) := Option.some.inj h
    cases hc : e.ch.sentClose with
    | true =>
      rw [writePacket_of_closed hc] at h'
      obtain ⟨rfl, rfl⟩ := Prod.mk.inj h'
      exact .sentClose hc
    | false =>
      rw [writePacket_close hc] at h'
      obtain ⟨rfl, rfl⟩ := Prod.mk.inj h'
      exact .sendClose hc
  | .remove id =>
    obtain ⟨rfl, rfl⟩ := Prod.mk.inj (Option.some.inj h)
    exact .remove id
  | .closeQueues =>
    obtain ⟨rfl, rfl⟩ := Prod.mk.inj (Option.some.inj h)
    exact .closeQueues
  | .setSentClose =>
    obtain ⟨rfl, rfl⟩ := Prod.mk.inj (Option.some.inj h)
    exact .setSentClose
  | .closeWindow =>
    obtain ⟨rfl, rfl⟩ := Prod.mk.inj (Option.some.inj h)
    exact .closeWindow
  | .post m =>
    obtain ⟨q, hq, hq'⟩ := Option.map_eq_some_iff.mp h
    obtain ⟨rfl, rfl⟩ := Prod.mk.inj hq'
    exact .post m q hq
  | .request r =>
    obtain ⟨q, hq, hq'⟩ := Option.map_eq_some_iff.mp h
    obtain ⟨rfl, rfl⟩ := Prod.mk.inj hq'
    exact .request r q hq

/-- A packet that is no close changes nothing. -/
theorem writePacket_plain (e : End) {p : Pkt} (hp : isClose p = false) :
    e.writePacket p = (e, if e.ch.sentClose then [] else [p]) := by
  cases hc : e.ch.sentClose with
  | true => exact writePacket_of_closed hc p
  | false => exact writePacket_of_open hc hp

/-- A guard that was passed. -/
theorem decided_of_guard {b : Bool} (h : ¬ (!b) = true) : b = true := by
  cases b with
  | true => rfl
  | false => exact absurd rfl h

/-- **Every step is one of these.** -/
theorem step_of_act {a : Act} (h : e.act a = some (e', ps)) : Step e a e' ps := by
  cases a with
  | write s data =>
    rw [act] at h
    split at h
    · rename_i hw
      split at h
      · cases h
      · rename_i hd
        split at h
        · rename_i hs
          obtain ⟨rfl, rfl⟩ := Prod.mk.inj (Option.some.inj h)
          exact .writeEnded s data hw (decided_of_guard hd) hs
        · rename_i hs
          obtain ⟨rfl, rfl⟩ := Prod.mk.inj (Option.some.inj h)
          exact .write s data hw (decided_of_guard hd) (Bool.not_eq_true _ ▸ hs)
    · cases h
  | reserve s =>
    rw [act] at h
    split at h
    · rename_i data hw
      split at h
      · cases h
      · rename_i n w hr
        obtain ⟨rfl, rfl⟩ := Prod.mk.inj (Option.some.inj h)
        exact .refuse s data n w hw hr
      · rename_i n w hr
        obtain ⟨rfl, rfl⟩ := Prod.mk.inj (Option.some.inj h)
        exact .reserve s data n w hw hr
    · cases h
  | send s =>
    rw [act] at h
    split at h
    · rename_i n data hw
      rw [writePacket_plain e rfl] at h
      cases hc : e.ch.sentClose with
      | true =>
        rw [hc] at h
        obtain ⟨rfl, rfl⟩ := Prod.mk.inj (Option.some.inj h)
        exact .giveUp s n data hw hc
      | false =>
        rw [hc] at h
        obtain ⟨rfl, rfl⟩ := Prod.mk.inj (Option.some.inj h)
        exact .send s n data hw hc
    · cases h
  | read s k =>
    rw [act] at h
    split at h
    · rename_i hr
      split at h
      · cases h
      · rename_i hd
        split at h
        · cases h
        · rename_i d b hb
          obtain ⟨rfl, rfl⟩ := Prod.mk.inj (Option.some.inj h)
          exact .read s k d b hr (decided_of_guard hd) hb
        · rename_i b hb
          obtain ⟨rfl, rfl⟩ := Prod.mk.inj (Option.some.inj h)
          exact .readEOF s k b hr (decided_of_guard hd) hb
    · cases h
  | addWindow s =>
    rw [act] at h
    split at h
    · rename_i n hr
      obtain ⟨rfl, rfl⟩ := Prod.mk.inj (Option.some.inj h)
      exact .addWindow s n hr
    · cases h
  | sendAdjust s =>
    rw [act] at h
    split at h
    · rename_i n hr
      rw [writePacket_plain e rfl] at h
      cases hc : e.ch.sentClose with
      | true =>
        rw [hc] at h
        obtain ⟨rfl, rfl⟩ := Prod.mk.inj (Option.some.inj h)
        exact .withhold s n hr hc
      | false =>
        rw [hc] at h
        obtain ⟨rfl, rfl⟩ := Prod.mk.inj (Option.some.inj h)
        exact .announce s n hr hc
    · cases h
  | closeWrite =>
    rw [act] at h
    split at h
    · cases h
    · rename_i hd
      obtain ⟨rfl, rfl⟩ := Prod.mk.inj (Option.some.inj h)
      exact .closeWrite (decided_of_guard hd)
  | sendEOF =>
    rw [act] at h
    split at h
    · cases h
    · rename_i n hn
      rw [writePacket_plain _ rfl] at h
      obtain ⟨rfl, rfl⟩ := Prod.mk.inj (Option.some.inj h)
      exact .sendEOF n hn _ rfl
  | close =>
    rw [act] at h
    split at h
    · cases h
    · rename_i hd
      cases hc : e.ch.sentClose with
      | true =>
        rw [writePacket_of_closed hc] at h
        obtain ⟨rfl, rfl⟩ := Prod.mk.inj (Option.some.inj h)
        exact .closedAlready (decided_of_guard hd) hc
      | false =>
        rw [writePacket_close hc] at h
        obtain ⟨rfl, rfl⟩ := Prod.mk.inj (Option.some.inj h)
        exact .close (decided_of_guard hd) hc
  | sendRequest r =>
    rw [act] at h
    split at h
    · cases h
    · rename_i hd
      split at h
      · rename_i hr
        obtain ⟨rfl, rfl⟩ := Prod.mk.inj (Option.some.inj h)
        exact .tooLarge r (decided_of_guard hd) hr
      · rename_i hr
        rw [writePacket_plain e rfl] at h
        obtain ⟨rfl, rfl⟩ := Prod.mk.inj (Option.some.inj h)
        exact .sendRequest r (decided_of_guard hd) (Nat.le_of_not_lt hr) _ rfl
  | ackRequest ok =>
    rw [act] at h
    split at h
    · cases h
    · rename_i hd
      rw [writePacket_plain e rfl] at h
      obtain ⟨rfl, rfl⟩ := Prod.mk.inj (Option.some.inj h)
      exact .ackRequest ok (decided_of_guard hd) _ rfl
  | takeMsg =>
    obtain ⟨⟨m, q⟩, hq, hq'⟩ := Option.map_eq_some_iff.mp h
    obtain ⟨rfl, rfl⟩ := Prod.mk.inj hq'
    exact .takeMsg m q hq
  | takeRequest =>
    obtain ⟨⟨r, q⟩, hq, hq'⟩ := Option.map_eq_some_iff.mp h
    obtain ⟨rfl, rfl⟩ := Prod.mk.inj hq'
    exact .takeRequest r q hq
  | handle =>
    rw [act] at h
    split at h
    · cases h
    · rename_i a todo ht
      exact .handle a todo e' ps ht (handled_of_handleAct h)

/-! ## What a step leaves alone -/

/-- What was settled when the channel was opened, and whether the loop that
reads packets still runs. -/
structure Terms where
  localId : UInt32
  remoteId : UInt32
  maxIncomingPayload : ℕ
  maxRemotePayload : ℕ
  decided : Bool
  direction : ChannelDirection
  failed : Option GoString

/-- The terms of an end. -/
def terms (e : End) : Terms :=
  ⟨e.ch.localId, e.ch.remoteId, e.ch.maxIncomingPayload, e.ch.maxRemotePayload, e.ch.decided,
    e.ch.direction, e.failed⟩

theorem terms_setBuffer (e : End) (s : Stream) (b : Buffer) :
    { e with ch := e.ch.setBuffer s b }.terms = e.terms := by
  cases s <;> rfl

theorem terms_of_handled {a : MuxAct} (h : Handled e a e' ps) : e'.terms = e.terms := by
  cases h with
  | store s data => exact terms_setBuffer e s _
  | eof s => exact terms_setBuffer e s _
  | _ => rfl

/-- **No step changes the terms.** -/
theorem terms_of_step {a : Act} (h : Step e a e' ps) : e'.terms = e.terms := by
  cases h with
  | read s k d b => exact terms_setBuffer e s b
  | readEOF s k b => exact terms_setBuffer e s b
  | handle a todo _ _ ht h =>
    have hterms := terms_of_handled h
    exact hterms
  | _ => rfl

/-- What a writer may rely on: it writes to a channel that is open, and the
credit it has is for data it has, and for no more than the peer takes in a
packet. -/
def WriterOk (max : ℕ) (decided : Bool) : WriterPc → Prop
  | .idle => True
  | .loop _ => decided = true
  | .ready n data => decided = true ∧ n ≤ data.length ∧ n ≤ max

/-- All writers can. -/
def Wf (e : End) : Prop := ∀ s, WriterOk e.ch.maxRemotePayload e.ch.decided (e.lane s).writer

theorem Wf.congr (h : e.Wf) (ht : e'.terms = e.terms)
    (hl : ∀ s, (e'.lane s).writer = (e.lane s).writer) : e'.Wf := by
  intro s
  have hmax : e'.ch.maxRemotePayload = e.ch.maxRemotePayload := congrArg Terms.maxRemotePayload ht
  have hdec : e'.ch.decided = e.ch.decided := congrArg Terms.decided ht
  rw [hl, hmax, hdec]
  exact h s

theorem Wf.setLane (h : e.Wf) {s : Stream} {l : Lane}
    (hl : WriterOk e.ch.maxRemotePayload e.ch.decided l.writer) : (e.setLane s l).Wf := by
  intro t
  show WriterOk _ _ (Function.update e.lane s l t).writer
  by_cases ht : t = s
  · rw [ht, Function.update_self]
    exact hl
  · rw [Function.update_of_ne ht]
    exact h t

theorem writerOk_afterSend {max : ℕ} {decided : Bool} (h : decided = true) (data : Bytes) :
    WriterOk max decided (afterSend data) := by
  cases data with
  | nil => trivial
  | cons b data => exact h

theorem lane_of_handled {a : MuxAct} (h : Handled e a e' ps) : e'.lane = e.lane := by
  cases h <;> rfl

/-- **Every step keeps what the writers rely on.** -/
theorem Wf.step (h : e.Wf) {a : Act} (hs : Step e a e' ps) : e'.Wf := by
  cases hs with
  | write s data hw hd hs => exact h.setLane (writerOk_afterSend hd data)
  | reserve s data n w hw hr =>
    have hn := (Window.reserve_cases hr).1
    have hd : e.ch.decided = true := by
      have hs := h s
      rwa [hw] at hs
    have hmod := Nat.mod_le data.length (2 ^ 32)
    have hmax : n ≤ e.ch.maxRemotePayload := by omega
    have hwf : ({ e with ch := { e.ch with remoteWin := w } } : End).Wf := h
    exact hwf.setLane ⟨hd, by omega, hmax⟩
  | refuse s data n w hw hr =>
    have hwf : ({ e with ch := { e.ch with remoteWin := w } } : End).Wf := h
    exact hwf.setLane trivial
  | send s n data hw hc =>
    have hs := h s
    rw [hw] at hs
    exact h.setLane (writerOk_afterSend hs.1 _)
  | giveUp s n data hw hc => exact h.setLane trivial
  | read s k d b hr hd hb =>
    have hwf := h.congr (terms_setBuffer e s b) (fun _ => rfl)
    exact hwf.setLane (hwf s)
  | readEOF s k b hr hd hb =>
    have hwf := h.congr (terms_setBuffer e s b) (fun _ => rfl)
    exact hwf.setLane (hwf s)
  | addWindow s n hr =>
    have hwf : ({ e with ch := { e.ch with
      myWindow := (e.ch.myWindow + n) % 2 ^ 32 } } : End).Wf := h
    exact hwf.setLane (h s)
  | announce s n hr hc => exact h.setLane (h s)
  | withhold s n hr hc => exact h.setLane (h s)
  | handle a todo _ _ ht hh =>
    have hterms := terms_of_handled hh
    exact h.congr hterms (fun s => by rw [lane_of_handled hh])
  | _ => exact h

/-! ## The accounts of an end

In one direction an end is the sender of a flow, in the other one the
receiver. -/

/-- The account of a sender. -/
@[ext]
structure Sender where
  win : ℕ
  reserved : Stream → ℕ
  sent : Stream → Bytes

/-- What a writer has taken and not used. -/
def reservedOf : WriterPc → ℕ
  | .ready n _ => n
  | _ => 0

/-- What a reader has read and not added to the window. -/
def owedOf : ReaderPc → ℕ
  | .owes n => n
  | _ => 0

/-- What a reader has added to the window and not sent. -/
def grantedOf : ReaderPc → ℕ
  | .granted n => n
  | _ => 0

/-- The stream of a code. -/
def streamOf : ℕ → Option Stream
  | 0 => some .stdout
  | 1 => some .stderr
  | _ => none

/-- The data in an action. -/
def chunkOf : MuxAct → Option (Option Stream × Bytes)
  | .store extended data => some (streamOf extended, data)
  | _ => none

/-- **An end as a sender.** -/
def sender (e : End) : Sender where
  win := e.ch.remoteWin.win
  reserved := fun s => reservedOf (e.lane s).writer
  sent := fun s => (e.lane s).sent

/-- **An end as a receiver.** -/
def receiver (e : End) : Receiver Stream UInt8 where
  window := e.ch.myWindow
  stored := e.todo.filterMap chunkOf
  buffer := fun s => (e.ch.buffer s).contents
  got := fun s => (e.lane s).got
  owed := fun s => owedOf (e.lane s).reader
  granted := fun s => grantedOf (e.lane s).reader
  wasted := e.discarded

/-- A change to one value, as a reading of the values sees it. -/
theorem comp_update {α β : Type} (f : α → β) (g : Stream → α) (s : Stream) (a : α) :
    (fun t => f (Function.update g s a t)) = Function.update (fun t => f (g t)) s (f a) := by
  funext t
  by_cases ht : t = s
  · rw [ht, Function.update_self, Function.update_self]
  · rw [Function.update_of_ne ht, Function.update_of_ne ht]

/-- A change to one buffer. -/
theorem buffer_setBuffer (c : Channel) (s : Stream) (b : Buffer) :
    (c.setBuffer s b).buffer = Function.update c.buffer s b := by
  funext t
  cases s <;> cases t <;> rfl

/-- **What a step can do to the accounts**: a move of one of them, with the
packets that belong to it. -/
inductive Effect (e e' : End) : List Pkt → Prop
  /-- Neither account is touched, and what is sent carries neither data nor
  credit. -/
  | idle {ps : List Pkt} (hs : e'.sender = e.sender) (hr : e'.receiver = e.receiver)
      (hd : ps.filterMap Pkt.chunk = []) (hc : ps.filterMap Pkt.credit = []) : Effect e e' ps
  | reserve (s : Stream) (n : ℕ) (hn : n ≤ e.sender.win)
      (hs : e'.sender = { e.sender with
        win := e.sender.win - n
        reserved := Function.update e.sender.reserved s (e.sender.reserved s + n) })
      (hr : e'.receiver = e.receiver) : Effect e e' []
  /-- Credit is dropped, some of it from the window. -/
  | forfeit (s : Stream) (n : ℕ) (hn : n ≤ e.sender.win)
      (hs : e'.sender = { e.sender with
        win := e.sender.win - n
        reserved := Function.update e.sender.reserved s 0 })
      (hr : e'.receiver = e.receiver)
      (hclosed : e.ch.remoteWin.closed = true ∨ e.ch.sentClose = true) : Effect e e' []
  | send (s : Stream) (d : Bytes) (hd : d.length = e.sender.reserved s)
      (hs : e'.sender = { e.sender with
        reserved := Function.update e.sender.reserved s 0
        sent := Function.update e.sender.sent s (e.sender.sent s ++ d) })
      (hr : e'.receiver = e.receiver) : Effect e e' [.data s d]
  | store (hs : e'.sender = e.sender) (hr : e.receiver.store = some e'.receiver) : Effect e e' []
  | read (s : Stream) (n : ℕ) (hs : e'.sender = e.sender)
      (hr : e.receiver.read s n = some e'.receiver) : Effect e e' []
  | grant (s : Stream) (hs : e'.sender = e.sender) (hr : e'.receiver = e.receiver.grant s) :
      Effect e e' []
  | announce (s : Stream) (hs : e'.sender = e.sender)
      (hr : e'.receiver = e.receiver.announce s) :
      Effect e e' [.windowAdjust (e.receiver.granted s)]
  | withhold (s : Stream) (hs : e'.sender = e.sender)
      (hr : e'.receiver = e.receiver.announce s) (hclosed : e.ch.sentClose = true) : Effect e e' []

/-- A value that is there already. -/
theorem update_of_eq {β : Type} {f : Stream → β} {s : Stream} {b : β} (h : f s = b) :
    Function.update f s b = f := by
  rw [← h]
  exact Function.update_eq_self s f

/-- A change to a lane, as the sender's account sees it. -/
theorem sender_setLane (e : End) (s : Stream) (l : Lane) :
    (e.setLane s l).sender = { e.sender with
      reserved := Function.update e.sender.reserved s (reservedOf l.writer)
      sent := Function.update e.sender.sent s l.sent } :=
  Sender.ext rfl (comp_update (fun l : Lane => reservedOf l.writer) e.lane s l)
    (comp_update Lane.sent e.lane s l)

/-- A change to a lane, as the receiver's account sees it. -/
theorem receiver_setLane (e : End) (s : Stream) (l : Lane) :
    (e.setLane s l).receiver = { e.receiver with
      got := Function.update e.receiver.got s l.got
      owed := Function.update e.receiver.owed s (owedOf l.reader)
      granted := Function.update e.receiver.granted s (grantedOf l.reader) } :=
  Receiver.ext rfl rfl rfl (comp_update Lane.got e.lane s l)
    (comp_update (fun l : Lane => owedOf l.reader) e.lane s l)
    (comp_update (fun l : Lane => grantedOf l.reader) e.lane s l) rfl

/-- A change to a lane that only a reader sees. -/
theorem sender_setLane_same (e : End) {s : Stream} {l : Lane}
    (hw : l.writer = (e.lane s).writer) (hs : l.sent = (e.lane s).sent) :
    (e.setLane s l).sender = e.sender := by
  rw [sender_setLane, hw, hs]
  exact Sender.ext rfl (update_of_eq rfl) (update_of_eq rfl)

/-- A change to a lane that only a writer sees. -/
theorem receiver_setLane_same (e : End) {s : Stream} {l : Lane}
    (hr : l.reader = (e.lane s).reader) (hg : l.got = (e.lane s).got) :
    (e.setLane s l).receiver = e.receiver := by
  rw [receiver_setLane, hr, hg]
  exact Receiver.ext rfl rfl rfl (update_of_eq rfl) (update_of_eq rfl) (update_of_eq rfl) rfl

/-- A writer that moves. -/
theorem sender_setWriter (e : End) (s : Stream) (w : WriterPc) :
    (e.setWriter s w).sender
      = { e.sender with reserved := Function.update e.sender.reserved s (reservedOf w) } := by
  rw [setWriter, sender_setLane]
  exact Sender.ext rfl rfl (update_of_eq rfl)

/-- A reader that moves. -/
theorem receiver_setReader (e : End) (s : Stream) (r : ReaderPc) :
    (e.setReader s r).receiver = { e.receiver with
      owed := Function.update e.receiver.owed s (owedOf r)
      granted := Function.update e.receiver.granted s (grantedOf r) } := by
  rw [setReader, receiver_setLane]
  exact Receiver.ext rfl rfl rfl (update_of_eq rfl) rfl rfl rfl

/-- A change to a buffer. -/
theorem sender_setBuffer (e : End) (s : Stream) (b : Buffer) :
    { e with ch := e.ch.setBuffer s b }.sender = e.sender := by
  cases s <;> rfl

theorem receiver_setBuffer (e : End) (s : Stream) (b : Buffer) :
    { e with ch := e.ch.setBuffer s b }.receiver = { e.receiver with
      buffer := Function.update e.receiver.buffer s b.contents } := by
  refine Receiver.ext ?_ rfl ?_ rfl rfl rfl rfl
  · cases s <;> rfl
  · show (fun t => ((e.ch.setBuffer s b).buffer t).contents) = _
    rw [buffer_setBuffer]
    exact comp_update Buffer.contents e.ch.buffer s b

/-- A change to a buffer that leaves what is in it. -/
theorem receiver_setBuffer_same (e : End) (s : Stream) (b : Buffer)
    (hb : b.contents = (e.ch.buffer s).contents) :
    { e with ch := e.ch.setBuffer s b }.receiver = e.receiver := by
  rw [receiver_setBuffer, hb]
  exact congrArg (fun f => { e.receiver with buffer := f })
    (Function.update_eq_self s e.receiver.buffer)

theorem reservedOf_afterSend (data : Bytes) : reservedOf (afterSend data) = 0 := by
  cases data <;> rfl

theorem owedOf_afterRead (n : ℕ) : owedOf (afterRead n) = n := by
  unfold afterRead
  split
  · rfl
  · rename_i h
    exact (Nat.eq_zero_of_not_pos h).symm

theorem grantedOf_afterRead (n : ℕ) : grantedOf (afterRead n) = 0 := by
  unfold afterRead
  split <;> rfl

/-- What the goroutine that handles packets does to the accounts. -/
theorem effect_of_handled {a : MuxAct} {todo : List MuxAct} (ht : e.todo = a :: todo)
    (h : Handled { e with todo } a e' ps) : Effect e e' ps := by
  have hstored : e.receiver.stored = ([a].filterMap chunkOf) ++ todo.filterMap chunkOf := by
    show e.todo.filterMap chunkOf = _
    rw [ht, ← List.filterMap_append]
    rfl
  -- an action that carries no data
  have hrest : chunkOf a = none → ({ e with todo } : End).receiver = e.receiver := by
    intro ha
    refine Receiver.ext rfl ?_ rfl rfl rfl rfl rfl
    show todo.filterMap chunkOf = e.todo.filterMap chunkOf
    rw [ht, List.filterMap_cons_none ha]
  cases h with
  | store s data =>
    refine .store (sender_setBuffer { e with todo } s _) ?_
    rw [receiver_setBuffer, Buffer.contents_write]
    have hst : e.receiver.stored = (some s, data) :: todo.filterMap chunkOf := by
      rw [hstored]
      cases s <;> rfl
    unfold Receiver.store
    rw [hst]
    rfl
  | discard n data =>
    refine .store rfl ?_
    have hst : e.receiver.stored = (none, data) :: todo.filterMap chunkOf := hstored
    unfold Receiver.store
    rw [hst]
    rfl
  | eof s =>
    refine .idle (sender_setBuffer { e with todo } s _) ?_ rfl rfl
    rw [receiver_setBuffer_same { e with todo } s _ (Buffer.contents_eof _)]
    exact hrest rfl
  | _ => exact .idle rfl (hrest rfl) rfl rfl

/-- **What a step does to the accounts**, where the window does not
overflow. -/
theorem effect_of_step (hwf : e.Wf) {a : Act} (h : Step e a e' ps)
    (hwin : ∀ s, e.receiver.window + e.receiver.owed s < 2 ^ 32) : Effect e e' ps := by
  cases h with
  | write s data hw hd hs =>
    refine .idle ?_ (receiver_setLane_same e rfl rfl) rfl rfl
    have hres : e.sender.reserved s = 0 := congrArg reservedOf hw
    rw [sender_setWriter, reservedOf_afterSend, update_of_eq hres]
  | reserve s data n w hw hr =>
    obtain ⟨-, hwin, -, -⟩ := Window.reserve_cases hr
    have hres : e.sender.reserved s = 0 := congrArg reservedOf hw
    refine .reserve s n (show n ≤ e.ch.remoteWin.win by omega) ?_ (receiver_setLane_same _ rfl rfl)
    rw [sender_setWriter, hres, Nat.zero_add]
    exact Sender.ext (show w.win = e.ch.remoteWin.win - n by omega) rfl rfl
  | refuse s data n w hw hr =>
    obtain ⟨-, hwin, hc, -⟩ := Window.reserve_cases hr
    refine .forfeit s n (show n ≤ e.ch.remoteWin.win by omega) ?_
      (receiver_setLane_same _ rfl rfl) (.inl hc.symm)
    rw [sender_setWriter]
    exact Sender.ext (show w.win = e.ch.remoteWin.win - n by omega) rfl rfl
  | send s n data hw hc =>
    have hs := hwf s
    rw [hw] at hs
    refine .send s (data.take n) ?_ ?_ (receiver_setLane_same _ rfl rfl)
    · rw [List.length_take_of_le hs.2.1]
      exact (congrArg reservedOf hw).symm
    · rw [sender_setLane, reservedOf_afterSend]
      rfl
  | giveUp s n data hw hc =>
    exact .forfeit s 0 (Nat.zero_le _) (sender_setWriter e s .idle)
      (receiver_setLane_same e rfl rfl) (.inr hc)
  | read s k d b hr hd hb =>
    obtain ⟨-, ⟨d', hd', hsplit, -⟩ | ⟨hne, -⟩⟩ := Buffer.read_cases hb
    · obtain rfl : d = d' := Buffer.ReadResult.data.inj hd'
      have hbuf : e.receiver.buffer s = d ++ b.contents := hsplit
      have howed : e.receiver.owed s = 0 := congrArg owedOf hr
      have hgranted : e.receiver.granted s = 0 := congrArg grantedOf hr
      have hsender := sender_setLane_same { e with ch := e.ch.setBuffer s b } (s := s) (l := {
        e.lane s with reader := afterRead d.length, got := (e.lane s).got ++ d }) rfl rfl
      refine .read s d.length (hsender.trans (sender_setBuffer e s b)) ?_
      rw [receiver_setLane, receiver_setBuffer, owedOf_afterRead, grantedOf_afterRead,
        Receiver.read, if_pos (by rw [hbuf, List.length_append]; omega), hbuf,
        List.drop_left, List.take_left, howed, Nat.zero_add]
      exact congrArg some (Receiver.ext rfl rfl rfl rfl rfl (update_of_eq hgranted).symm rfl)
    · cases hne
  | readEOF s k b hr hd hb =>
    obtain ⟨-, ⟨d', hd', -⟩ | ⟨-, -, hempty, hempty'⟩⟩ := Buffer.read_cases hb
    · cases hd'
    · have hsender := sender_setLane_same { e with ch := e.ch.setBuffer s b } (s := s) (l := {
        e.lane s with sawEOF := true }) rfl rfl
      have hreceiver := receiver_setLane_same { e with ch := e.ch.setBuffer s b } (s := s) (l := {
        e.lane s with sawEOF := true }) rfl rfl
      exact .idle (hsender.trans (sender_setBuffer e s b))
        (hreceiver.trans (receiver_setBuffer_same e s b (hempty'.trans hempty.symm))) rfl rfl
  | addWindow s n hr =>
    have howed : e.receiver.owed s = n := congrArg owedOf hr
    have hgranted : e.receiver.granted s = 0 := congrArg grantedOf hr
    have hlt := hwin s
    rw [howed] at hlt
    refine .grant s (sender_setLane_same _ rfl rfl) ?_
    rw [receiver_setReader, Receiver.grant, howed, hgranted, Nat.zero_add]
    exact Receiver.ext (Nat.mod_eq_of_lt hlt) rfl rfl rfl rfl rfl rfl
  | announce s n hr hc =>
    have howed : e.receiver.owed s = 0 := congrArg owedOf hr
    have hgranted : e.receiver.granted s = n := congrArg grantedOf hr
    rw [← hgranted]
    refine .announce s (sender_setLane_same e rfl rfl) ?_
    rw [receiver_setReader, show owedOf .idle = 0 from rfl, update_of_eq howed]
    rfl
  | withhold s n hr hc =>
    have howed : e.receiver.owed s = 0 := congrArg owedOf hr
    refine .withhold s (sender_setLane_same e rfl rfl) ?_ hc
    rw [receiver_setReader, show owedOf .idle = 0 from rfl, update_of_eq howed]
    rfl
  | sendEOF n hn ps hps =>
    refine .idle rfl rfl ?_ ?_ <;>
    · rw [hps]
      split <;> rfl
  | sendRequest r hd hr ps hps =>
    refine .idle rfl rfl ?_ ?_ <;>
    · rw [hps]
      split <;> rfl
  | ackRequest ok hd ps hps =>
    refine .idle rfl rfl ?_ ?_ <;>
    · rw [hps]
      split <;> rfl
  | handle a todo _ _ ht hh => exact effect_of_handled ht hh
  | _ => exact .idle rfl rfl rfl rfl

/-! ## What a packet can do

The packets of this section are whatever bytes the peer chose. -/

/-- **What a delivery can do**: the packet is the connection's, or the loop ends
with an error, or the packet is handled. -/
theorem deliver_cases {packet : Bytes} (h : e.deliver packet = some e') :
    e.failed = none ∧ e.todo = [] ∧ (e' = e ∨ (∃ err, e' = e.fail err)
      ∨ ∃ opCode body ch todo, packet = opCode :: body ∧ e.removed = false
        ∧ e.ch.handlePacket opCode body = .ok (ch, todo) ∧ e' = { e with ch, todo }) := by
  unfold deliver at h
  split at h
  · cases h
  · rename_i hready
    rw [Bool.or_eq_true, not_or, Bool.not_eq_true, Bool.not_eq_true, Option.isSome_eq_false_iff,
      Option.isNone_iff_eq_none, Bool.not_eq_false', List.isEmpty_iff] at hready
    refine ⟨hready.1, hready.2, ?_⟩
    split at h
    · cases h
    · rename_i opCode body
      split at h
      · exact .inr (.inl ⟨_, (Option.some.inj h).symm⟩)
      · exact .inl (Option.some.inj h).symm
      · split at h
        · exact .inr (.inl ⟨_, (Option.some.inj h).symm⟩)
        · split at h
          · exact .inr (.inl ⟨_, (Option.some.inj h).symm⟩)
          · rename_i hid
            rw [Bool.or_eq_true, not_or, Bool.not_eq_true] at hid
            split at h
            · exact .inr (.inl ⟨_, (Option.some.inj h).symm⟩)
            · rename_i ch todo hp
              exact .inr (.inr ⟨opCode, body, ch, todo, rfl, hid.1, hp, (Option.some.inj h).symm⟩)

/-- What `handleData` can do. -/
theorem handleData_cases {c c' : Channel} {opCode : UInt8} {body : Bytes} {todo : List MuxAct}
    (hlen : (opCode :: body).length < 2 ^ 32) (h : c.handleData opCode body = .ok (c', todo)) :
    (c' = c ∧ todo = []) ∨ ∃ extended data, data.length ≤ c.myWindow
      ∧ c' = { c with myWindow := c.myWindow - data.length } ∧ todo = [.store extended data] := by
  unfold handleData at h
  simp only [] at h
  -- neither the length of the header nor the code matters here
  generalize (if opCode = msgChannelExtendedData then 13 else 9) = headerLen at h
  generalize (if opCode = msgChannelExtendedData then _ else 0) = extended at h
  split at h
  · cases h
  · split at h
    · obtain ⟨rfl, rfl⟩ := Prod.mk.inj (Except.ok.inj h)
      exact .inl ⟨rfl, rfl⟩
    · split at h
      · cases h
      · split at h
        · cases h
        · rename_i hdata
          split at h
          · cases h
          · rename_i hwin
            obtain ⟨rfl, rfl⟩ := Prod.mk.inj (Except.ok.inj h)
            rw [not_not, Nat.mod_eq_of_lt] at hdata
            · rw [hdata] at hwin ⊢
              exact .inr ⟨_, _, Nat.le_of_not_lt hwin, rfl, rfl⟩
            · rw [List.length_drop]
              omega

/-- An answer to an open request is only taken while one is awaited, and
touches nothing that belongs to the receiver. -/
theorem openConfirmed_cases {c c' : Channel} {myId myWindow maxPacketSize : UInt32}
    (h : c.openConfirmed myId myWindow maxPacketSize = .ok c') :
    c.decided = false ∧ c'.myWindow = c.myWindow ∧ c'.buffer = c.buffer := by
  unfold openConfirmed responseMessageReceived at h
  split at h
  · cases h
  · rename_i c₁ hc₁
    split at hc₁
    · cases hc₁
    · split at hc₁
      · cases hc₁
      · rename_i hdec
        obtain rfl := Except.ok.inj hc₁
        split at h
        · cases h
        · obtain rfl := Except.ok.inj h
          refine ⟨Bool.not_eq_true _ ▸ hdec, rfl, ?_⟩
          funext s
          cases s <;> rfl

/-- **What a packet can do to a channel**: it is data that fits in the
window, or it leaves the window and the buffers alone. -/
theorem handlePacket_cases {c c' : Channel} {opCode : UInt8} {body : Bytes} {todo : List MuxAct}
    (hlen : (opCode :: body).length < 2 ^ 32) (h : c.handlePacket opCode body = .ok (c', todo)) :
    (∃ extended data, data.length ≤ c.myWindow
      ∧ c' = { c with myWindow := c.myWindow - data.length } ∧ todo = [.store extended data])
    ∨ (todo.filterMap chunkOf = [] ∧ c'.myWindow = c.myWindow ∧ c'.buffer = c.buffer
      ∧ (c.decided = true → c'.decided = true ∧ c'.maxRemotePayload = c.maxRemotePayload)) := by
  unfold handlePacket at h
  split at h
  · obtain ⟨rfl, rfl⟩ | hdata := handleData_cases hlen h
    · exact .inr ⟨rfl, rfl, rfl, fun hd => ⟨hd, rfl⟩⟩
    · exact .inl hdata
  · right
    split at h
    · obtain ⟨rfl, rfl⟩ := Prod.mk.inj (Except.ok.inj h)
      exact ⟨rfl, rfl, rfl, fun hd => ⟨hd, rfl⟩⟩
    · split at h
      · obtain ⟨rfl, rfl⟩ := Prod.mk.inj (Except.ok.inj h)
        exact ⟨rfl, rfl, rfl, fun hd => ⟨hd, rfl⟩⟩
      · split at h
        · cases h
        · unfold handleMessage at h
          split at h
          · -- the opening failed
            split at h
            · cases h
            · rename_i c₁ hc₁
              unfold responseMessageReceived at hc₁
              split at hc₁
              · cases hc₁
              · split at hc₁
                · cases hc₁
                · rename_i hdec
                  obtain rfl := Except.ok.inj hc₁
                  obtain ⟨rfl, rfl⟩ := Prod.mk.inj (Except.ok.inj h)
                  refine ⟨rfl, rfl, ?_, fun hd => absurd hd hdec⟩
                  funext s
                  cases s <;> rfl
          · split at h
            · cases h
            · rename_i c₁ hc₁
              obtain ⟨hdec, hwin, hbuf⟩ := openConfirmed_cases hc₁
              obtain ⟨rfl, rfl⟩ := Prod.mk.inj (Except.ok.inj h)
              refine ⟨rfl, hwin, hbuf, fun hd => ?_⟩
              rw [hdec] at hd
              cases hd
          · split at h
            · cases h
            · obtain ⟨rfl, rfl⟩ := Prod.mk.inj (Except.ok.inj h)
              refine ⟨rfl, rfl, ?_, fun hd => ⟨hd, rfl⟩⟩
              funext s
              cases s <;> rfl
          · obtain ⟨rfl, rfl⟩ := Prod.mk.inj (Except.ok.inj h)
            exact ⟨rfl, rfl, rfl, fun hd => ⟨hd, rfl⟩⟩
          · obtain ⟨rfl, rfl⟩ := Prod.mk.inj (Except.ok.inj h)
            exact ⟨rfl, rfl, rfl, fun hd => ⟨hd, rfl⟩⟩

/-- **What a packet does to the account of the receiver.** -/
theorem receiver_of_deliver {packet : Bytes} (hlen : packet.length < 2 ^ 32)
    (h : e.deliver packet = some e') :
    e'.receiver = e.receiver ∨ ∃ k d, e.receiver.accept k d = some e'.receiver := by
  obtain ⟨-, htodo, rfl | ⟨err, rfl⟩ | ⟨opCode, body, ch, todo, rfl, -, hp, rfl⟩⟩ :=
    deliver_cases h
  · exact .inl rfl
  · refine .inl (Receiver.ext rfl ?_ rfl rfl rfl rfl rfl)
    show (if e.removed then [] else closeActs).filterMap chunkOf = e.todo.filterMap chunkOf
    rw [htodo]
    split <;> rfl
  · obtain ⟨extended, data, hfits, rfl, rfl⟩ | ⟨hchunk, hwin, hbuf, -⟩ := handlePacket_cases hlen hp
    · refine .inr ⟨streamOf extended, data, ?_⟩
      have hfits' : data.length ≤ e.receiver.window := hfits
      rw [Receiver.accept, if_pos hfits']
      refine congrArg some (Receiver.ext rfl ?_ rfl rfl rfl rfl rfl)
      show e.todo.filterMap chunkOf ++ [(streamOf extended, data)] = _
      rw [htodo]
      rfl
    · refine .inl (Receiver.ext hwin ?_ ?_ rfl rfl rfl rfl)
      · show todo.filterMap chunkOf = e.todo.filterMap chunkOf
        rw [hchunk, htodo]
        rfl
      · show (fun s => (ch.buffer s).contents) = _
        rw [hbuf]
        rfl

theorem Wf.deliver (h : e.Wf) {packet : Bytes} (hlen : packet.length < 2 ^ 32)
    (hd : e.deliver packet = some e') : e'.Wf := by
  obtain ⟨-, -, rfl | ⟨err, rfl⟩ | ⟨opCode, body, ch, todo, rfl, -, hp, rfl⟩⟩ := deliver_cases hd
  · exact h
  · exact h
  · obtain ⟨extended, data, -, rfl, -⟩ | ⟨-, -, -, hkeep⟩ := handlePacket_cases hlen hp
    · exact h
    · intro s
      have hs := h s
      show WriterOk ch.maxRemotePayload ch.decided (e.lane s).writer
      cases hdec : e.ch.decided with
      | true => rwa [(hkeep hdec).1, (hkeep hdec).2, ← hdec]
      | false =>
        -- only an idle writer is well off while the channel is not open
        rw [hdec] at hs
        cases hw : (e.lane s).writer with
        | idle => trivial
        | loop data =>
          rw [hw] at hs
          cases hs
        | ready n data =>
          rw [hw] at hs
          cases hs.1

end End

/-! ## An end alone -/

/-- Nothing has happened yet. -/
def End.ofChannel (c : Channel) : End where
  ch := c
  lane := fun _ => ⟨.idle, .idle, [], [], false⟩
  todo := []
  failed := none
  removed := false
  eofDue := 0
  discarded := 0

/-- A channel that was asked for or that was granted. -/
inductive Opened : Channel → Prop
  | outbound (id : UInt32) : Opened (openChannel id)
  | inbound (id : UInt32) (m : channelOpenMsg.Val) (c c' : Channel)
      (reply : channelOpenConfirmMsg.Val) (hc : handleChannelOpen id m = some c)
      (ha : c.accept = some (c', reply)) : Opened c'

/-- What happens to an end that is alone. -/
inductive LoneLabel
  | act (a : End.Act)
  /-- A packet arrives, whatever it is. -/
  | packet (p : Bytes)

/-- **An end alone** with a peer that sends what it likes. -/
def lone (c : Channel) : Machine End LoneLabel where
  start := .ofChannel c
  step := fun e l =>
    match l with
    | .act a => (e.act a).map Prod.fst
    -- the connection takes no larger packets
    | .packet p => if p.length ≤ maxPacket then e.deliver p else none

/-- A channel begins with a whole window and empty buffers. -/
theorem Opened.receiver {c : Channel} (h : Opened c) :
    (End.ofChannel c).receiver = .start channelWindowSize := by
  cases h with
  | outbound id =>
    refine Receiver.ext rfl rfl ?_ rfl rfl rfl rfl
    funext s
    cases s <;> rfl
  | inbound id m c₀ c' reply hc ha =>
    obtain ⟨_, peersId, peersWindow, maxPacketSize, _⟩ := m
    unfold handleChannelOpen at hc
    simp only [] at hc
    split at hc
    · cases hc
    · obtain rfl := Option.some.inj hc
      obtain ⟨rfl, -⟩ := Prod.mk.inj (Option.some.inj ha)
      refine Receiver.ext rfl rfl ?_ rfl rfl rfl rfl
      funext s
      cases s <;> rfl

/-- **The accounts of an end hold whatever the peer sends.** -/
theorem holds_of_reachable {c : Channel} (hc : Opened c) {e : End} (h : (lone c).Reachable e) :
    e.Wf ∧ e.receiver.Holds channelWindowSize := by
  refine Machine.reachable_rec (P := fun e => e.Wf ∧ e.receiver.Holds channelWindowSize)
    ⟨fun _ => trivial, ?_⟩ ?_ h
  · show (End.ofChannel c).receiver.Holds channelWindowSize
    rw [hc.receiver]
    exact Receiver.holds_start _
  · rintro e l e' ⟨hwf, hholds⟩ hs
    cases l with
    | act a =>
      obtain ⟨⟨e₁, ps⟩, ha, rfl⟩ := Option.map_eq_some_iff.mp hs
      have hstep := End.step_of_act ha
      have hwin : ∀ s, e.receiver.window + e.receiver.owed s < 2 ^ 32 := fun s =>
        lt_of_le_of_lt (hholds.window_add_owed_le s) (by decide)
      refine ⟨hwf.step hstep, ?_⟩
      cases End.effect_of_step hwf hstep hwin with
      | idle _ hr | reserve _ _ _ _ hr | forfeit _ _ _ _ hr | send _ _ _ _ hr =>
        show e₁.receiver.Holds _
        rw [hr]
        exact hholds
      | store _ hr => exact hholds.store hr
      | read _ _ _ hr => exact hholds.read hr
      | grant s _ hr =>
        show e₁.receiver.Holds _
        rw [hr]
        exact hholds.grant s
      | announce s _ hr | withhold s _ hr =>
        show e₁.receiver.Holds _
        rw [hr]
        exact hholds.announce s
    | packet p =>
      have hs' : (if p.length ≤ maxPacket then e.deliver p else none) = some e' := hs
      split at hs'
      · rename_i hp
        have hlen : p.length < 2 ^ 32 := lt_of_le_of_lt hp (by decide)
        refine ⟨hwf.deliver hlen hs', ?_⟩
        obtain hr | ⟨k, d, hr⟩ := End.receiver_of_deliver hlen hs'
        · rw [hr]
          exact hholds
        · exact hholds.accept hr
      · cases hs'

/-- **No peer can make an end hold more than the window**, and the window
never grows beyond what it was: whatever packets arrive, and however the
goroutines of the channel take turns, what is in the two buffers and the
window together are no more than `channelWindowSize`, and `adjustWindow` stays
below it too. -/
theorem lone_bounded {c : Channel} (hc : Opened c) {e : End} (h : (lone c).Reachable e) :
    e.ch.pending.contents.length + e.ch.extPending.contents.length + e.ch.myWindow
        ≤ channelWindowSize
      ∧ ∀ s n, (e.lane s).reader = .owes n → e.ch.myWindow + n ≤ channelWindowSize := by
  have hholds := (holds_of_reachable hc h).2
  refine ⟨?_, fun s n hr => ?_⟩
  · have hsum : ∑ s, (e.receiver.buffer s).length
        = e.ch.pending.contents.length + e.ch.extPending.contents.length := by
      show ∑ s ∈ {Stream.stdout, Stream.stderr}, (e.receiver.buffer s).length = _
      rw [Finset.sum_pair (by decide)]
      rfl
    have hwin : e.receiver.window = e.ch.myWindow := rfl
    rw [Receiver.Holds, hsum, hwin] at hholds
    omega
  · have hle := hholds.window_add_owed_le s
    rwa [show e.receiver.owed s = n from congrArg End.owedOf hr] at hle

/-- A peer that sends three bytes to a channel that has no answer yet. -/
theorem lone_bounded_early :
    ∃ e, (lone (openChannel 0)).Reachable e ∧ e.ch.pending.contents = [97, 98, 99]
      ∧ e.ch.pending.contents.length + e.ch.extPending.contents.length + e.ch.myWindow
        ≤ channelWindowSize := by
  have hrun : (lone (openChannel 0)).Reachable _ :=
    ⟨[.packet [94, 0, 0, 0, 0, 0, 0, 0, 3, 97, 98, 99], .act .handle], rfl⟩
  exact ⟨_, hrun, rfl, (lone_bounded (.outbound 0) hrun).1⟩

end Ssh
