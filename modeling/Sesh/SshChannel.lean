import Sesh.Chan
import Sesh.SshMessages

/-!
# Channels

A session runs in a channel: a duplex stream of bytes, in fact two of them in
each direction, that shares its connection with others (`ssh/channel.go`).
Each side grants the other a window, the number of bytes it is ready to take.
Who writes takes from the window (`window.reserve`) and sends a packet of
that size; who receives checks the packet against the same number, puts the
data in a buffer (`buffer.write`), and gives the window back only when the
data has been read (`channel.ReadExtended`).

This module has the pieces, each as the source computes it: the buffer, the
window, the packets, and what a channel makes of a packet. A packet is
handled by the one goroutine that reads from the connection, which takes
several locks in turn. What it does under one of them is one action
(`Ssh.MuxAct`); the rest of the work on a packet is the list of actions that
are still to be done, and other goroutines may come in between.
-/

namespace Ssh

/-! ## The buffer -/

/-- **A buffer**: what is left of its first element, and the elements behind
it. The list of the source is never empty, since a new buffer begins with an
element that holds nothing. -/
structure Buffer where
  head : Bytes
  next : List Bytes
  closed : Bool
  deriving DecidableEq, Repr

/-- `newBuffer`. -/
def newBuffer : Buffer := ⟨[], [], false⟩

namespace Buffer

/-- `write`. -/
def write (b : Buffer) (buf : Bytes) : Buffer := { b with next := b.next ++ [buf] }

/-- `eof`. -/
def eof (b : Buffer) : Buffer := { b with closed := true }

/-- The loop of `Read`, for `k` bytes: what it copies, and the elements it
leaves. It goes on to the next element where the first one is exhausted. -/
def copy : ℕ → Bytes → List Bytes → Bytes × Bytes × List Bytes
  | k, head, [] => (head.take k, head.drop k, [])
  | k, head, e :: next =>
    if k ≤ head.length then (head.take k, head.drop k, e :: next)
    else
      let (copied, rest) := copy (k - head.length) e next
      (head ++ copied, rest)

/-- What `Read` returns. -/
inductive ReadResult
  | data (b : Bytes)
  | eof
  deriving DecidableEq, Repr

/-- **`Read`** with room for `k` bytes, `none` where it waits. -/
def read (b : Buffer) (k : ℕ) : Option (ReadResult × Buffer) :=
  let (copied, head, next) := copy k b.head b.next
  let b' : Buffer := ⟨head, next, b.closed⟩
  if k = 0 ∨ copied ≠ [] then some (.data copied, b')
  else if b.closed then some (.eof, b')
  else none

/-- **The bytes in a buffer.** -/
def contents (b : Buffer) : Bytes := b.head ++ b.next.flatten

@[simp] theorem contents_newBuffer : newBuffer.contents = [] := rfl

@[simp] theorem contents_write (b : Buffer) (buf : Bytes) :
    (b.write buf).contents = b.contents ++ buf := by
  simp [write, contents]

@[simp] theorem contents_eof (b : Buffer) : b.eof.contents = b.contents := rfl

@[simp] theorem closed_write (b : Buffer) (buf : Bytes) : (b.write buf).closed = b.closed := rfl

@[simp] theorem closed_eof (b : Buffer) : b.eof.closed = true := rfl

/-- The loop copies from the front and leaves the rest. -/
theorem copy_eq (k : ℕ) (head : Bytes) (next : List Bytes) :
    (copy k head next).1 = (head ++ next.flatten).take k
      ∧ (copy k head next).2.1 ++ (copy k head next).2.2.flatten
        = (head ++ next.flatten).drop k := by
  induction next generalizing k head with
  | nil => simp [copy]
  | cons e next ih =>
    rw [copy]
    split
    · rename_i h
      rw [List.take_append_of_le_length h, List.drop_append_of_le_length h]
      exact ⟨rfl, rfl⟩
    · rename_i h
      obtain ⟨htake, hdrop⟩ := ih (k - head.length) e
      have hk : k = head.length + (k - head.length) := by omega
      refine ⟨?_, ?_⟩
      · show head ++ (copy (k - head.length) e next).1 = _
        rw [htake, List.flatten_cons]
        conv_rhs => rw [hk, List.take_length_add_append]
      · show (copy (k - head.length) e next).2.1 ++ _ = _
        rw [hdrop, List.flatten_cons]
        conv_rhs => rw [hk, List.drop_length_add_append]

/-- **What a read does**: it takes from the front what there is, up to what
it has room for; it ends only where the buffer is closed and empty, and waits
only where it is open and empty. -/
theorem read_cases {b b' : Buffer} {k : ℕ} {r : ReadResult} (h : b.read k = some (r, b')) :
    b'.closed = b.closed
      ∧ ((∃ d, r = .data d ∧ b.contents = d ++ b'.contents ∧ d = b.contents.take k)
        ∨ (r = .eof ∧ b.closed = true ∧ b.contents = [] ∧ b'.contents = [])) := by
  obtain ⟨htake, hdrop⟩ := copy_eq k b.head b.next
  unfold read at h
  revert h htake hdrop
  rcases copy k b.head b.next with ⟨copied, head, next⟩
  intro h htake hdrop
  simp only [] at h htake hdrop
  have hsplit : b.contents = copied ++ (head ++ next.flatten) := by
    rw [htake, hdrop]
    exact (List.take_append_drop k _).symm
  split at h
  · obtain ⟨rfl, rfl⟩ := Prod.mk.inj (Option.some.inj h)
    exact ⟨rfl, .inl ⟨copied, rfl, hsplit, htake⟩⟩
  · rename_i hk
    rw [not_or, not_not] at hk
    split at h
    · rename_i hclosed
      obtain ⟨rfl, rfl⟩ := Prod.mk.inj (Option.some.inj h)
      have hempty : b.contents = [] := by
        have h₀ : b.contents.take k = [] := htake.symm.trans hk.2
        rcases List.take_eq_nil_iff.mp h₀ with hk₀ | hc
        · exact absurd hk₀ hk.1
        · exact hc
      refine ⟨rfl, .inr ⟨rfl, hclosed, hempty, ?_⟩⟩
      rw [hempty, hk.2] at hsplit
      exact hsplit.symm
    · cases h

/-- A buffer with something in it can be read from. -/
theorem exists_read {b : Buffer} {k : ℕ} (hk : 0 < k) (hb : b.contents ≠ []) :
    ∃ d b', b.read k = some (.data d, b') ∧ d ≠ [] := by
  have htake := (copy_eq k b.head b.next).1
  have hne : (copy k b.head b.next).1 ≠ [] := by
    rw [htake]
    intro h₀
    rcases List.take_eq_nil_iff.mp h₀ with hk₀ | hc
    · exact hk.ne' hk₀
    · exact hb hc
  exact ⟨_, _, if_pos (.inr hne), hne⟩

end Buffer

/-! ## The window -/

/-- **The window a side may write in**, in bytes. -/
structure Window where
  win : ℕ
  closed : Bool
  deriving DecidableEq, Repr

namespace Window

/-- `add`, `none` where it refuses: the sum is computed in 32 bits. -/
def add (w : Window) (n : ℕ) : Option Window :=
  if n = 0 then some w
  else if (w.win + n) % 2 ^ 32 < n then none
  else some { w with win := (w.win + n) % 2 ^ 32 }

/-- `close`. -/
def close (w : Window) : Window := { w with closed := true }

/-- `reserve`: what was taken, and whether the window is closed; `none` where
it waits. -/
def reserve (w : Window) (n : ℕ) : Option (ℕ × Bool × Window) :=
  if w.win = 0 ∧ w.closed = false then none
  else some (min w.win n, w.closed, { w with win := w.win - min w.win n })

/-- Within 32 bits, `add` adds. -/
theorem add_of_lt {w : Window} {n : ℕ} (h : w.win + n < 2 ^ 32) :
    w.add n = some { w with win := w.win + n } := by
  unfold add
  split
  · rename_i hn
    rw [hn]
    rfl
  · rw [Nat.mod_eq_of_lt h, if_neg (by omega)]

theorem reserve_cases {w w' : Window} {n m : ℕ} {c : Bool}
    (h : w.reserve n = some (m, c, w')) :
    m ≤ n ∧ w.win = m + w'.win ∧ c = w.closed ∧ w'.closed = w.closed := by
  unfold reserve at h
  split at h
  · cases h
  · obtain ⟨rfl, rfl, rfl⟩ : min w.win n = m ∧ w.closed = c ∧ _ = w' := by
      simpa [Prod.ext_iff] using h
    refine ⟨Nat.min_le_right _ _, ?_, rfl, rfl⟩
    have := Nat.min_le_left w.win n
    show w.win = min w.win n + (w.win - min w.win n)
    omega

end Window

/-! ## The numbers of messages -/

def msgDisconnect : UInt8 := 1
def msgNewKeys : UInt8 := 21
def msgGlobalRequest : UInt8 := 80
def msgRequestSuccess : UInt8 := 81
def msgRequestFailure : UInt8 := 82
def msgChannelOpen : UInt8 := 90
def msgChannelData : UInt8 := 94
def msgChannelExtendedData : UInt8 := 95
def msgChannelEOF : UInt8 := 96
def msgChannelClose : UInt8 := 97

/-! ## Packets of data -/

/-- **The two streams of a direction**: data, and extended data of type 1.
`WriteExtended` and `ReadExtended` take any type; these two are the ones a
session has. -/
inductive Stream
  | stdout
  | stderr
  deriving DecidableEq, Repr

/-- The code of a stream, zero for one that is not extended. -/
def Stream.extendedCode : Stream → ℕ
  | .stdout => 0
  | .stderr => 1

/-- `channelMaxPacket`. -/
def channelMaxPacket : ℕ := 2 ^ 15

/-- `channelWindowSize`. -/
def channelWindowSize : ℕ := 64 * channelMaxPacket

/-- `minPacketLength`. -/
def minPacketLength : ℕ := 9

/-- `maxPacket`, the largest packet that the connection takes. -/
def maxPacket : ℕ := 256 * 1024

/-- The packet `WriteExtended` puts together: an operation code, the number
of the channel, the code of the stream if it has one, the length, the data. -/
def dataPacket (remoteId : UInt32) (s : Stream) (todo : Bytes) : Bytes :=
  match s with
  | .stdout =>
    msgChannelData :: (putUint32 remoteId.toNat ++ (putUint32 todo.length ++ todo))
  | .stderr =>
    msgChannelExtendedData :: (putUint32 remoteId.toNat
      ++ (putUint32 Stream.stderr.extendedCode ++ (putUint32 todo.length ++ todo)))

/-! ## Channels -/

/-- A request, as it is handed to who uses the channel. -/
structure ChannelRequest where
  type : Bytes
  wantReply : Bool
  payload : Bytes
  deriving DecidableEq, Repr

inductive ChannelDirection
  | inbound
  | outbound
  deriving DecidableEq, Repr

/-- **A channel.** The two channels of Go it hands messages and requests on
through hold sixteen each. -/
structure Channel where
  localId : UInt32
  remoteId : UInt32
  maxIncomingPayload : ℕ
  maxRemotePayload : ℕ
  decided : Bool
  direction : ChannelDirection
  msg : Chan Message 16
  incomingRequests : Chan ChannelRequest 16
  /-- Whether `msg` and `incomingRequests` have been closed. -/
  closedQueues : Bool
  sentEOF : Bool
  remoteWin : Window
  pending : Buffer
  extPending : Buffer
  myWindow : ℕ
  sentClose : Bool

namespace Channel

/-- `newChannel`, with the number the list of channels gives it. -/
def newChannel (localId : UInt32) (direction : ChannelDirection) : Channel where
  localId := localId
  remoteId := 0
  maxIncomingPayload := 0
  maxRemotePayload := 0
  decided := false
  direction := direction
  msg := .empty
  incomingRequests := .empty
  closedQueues := false
  sentEOF := false
  remoteWin := ⟨0, false⟩
  pending := newBuffer
  extPending := newBuffer
  myWindow := channelWindowSize
  sentClose := false

/-- The buffer of a stream. -/
def buffer (c : Channel) : Stream → Buffer
  | .stdout => c.pending
  | .stderr => c.extPending

/-- A change to the buffer of a stream. -/
def setBuffer (c : Channel) (s : Stream) (b : Buffer) : Channel :=
  match s with
  | .stdout => { c with pending := b }
  | .stderr => { c with extPending := b }

/-- What is still to be done for a packet, lock by lock. -/
inductive MuxAct
  /-- The end of `handleData`: the data goes to the buffer of its stream, or
  nowhere if its code is neither 0 nor 1. -/
  | store (extended : ℕ) (data : Bytes)
  | eof (s : Stream)
  | sendClose
  /-- `chanList.remove`. -/
  | remove (id : UInt32)
  /-- `close(c.msg)` and `close(c.incomingRequests)`. -/
  | closeQueues
  | setSentClose
  | closeWindow
  /-- `c.msg <- msg`. -/
  | post (m : Message)
  /-- `c.incomingRequests <- req`. -/
  | request (r : ChannelRequest)

/-- The two buffers of a channel that ends. -/
def closeActs : List MuxAct := [.eof .stdout, .eof .stderr, .closeQueues, .setSentClose, .closeWindow]

/-- `handleData` on the packet `opCode :: body`, up to the buffers. -/
def handleData (c : Channel) (opCode : UInt8) (body : Bytes) :
    Except GoString (Channel × List MuxAct) :=
  let packet := opCode :: body
  let headerLen := if opCode = msgChannelExtendedData then 13 else 9
  if packet.length < headerLen then .error (parseError opCode)
  else
    let extended :=
      if opCode = msgChannelExtendedData then BigEndian.toNat ((packet.drop 5).take 4) else 0
    let length := BigEndian.toNat ((packet.drop (headerLen - 4)).take 4)
    if length = 0 then .ok (c, [])
    else if c.maxIncomingPayload < length then
      .error "ssh: incoming packet exceeds maximum payload size".toList
    else
      let data := packet.drop headerLen
      if length ≠ data.length % 2 ^ 32 then .error "ssh: wrong packet length".toList
      else if c.myWindow < length then .error "ssh: remote side wrote too much".toList
      else .ok ({ c with myWindow := c.myWindow - length }, [.store extended data])

/-- `responseMessageReceived`. -/
def responseMessageReceived (c : Channel) : Except GoString Channel :=
  if c.direction = .inbound then
    .error "ssh: channel response message received on inbound channel".toList
  else if c.decided then .error "ssh: duplicate response received for channel".toList
  else .ok { c with decided := true }

/-- What the answer to an open request says: the number of the channel, the
window, and the size of packets. -/
def confirmed (m : channelOpenConfirmMsg.Val) : UInt32 × UInt32 × UInt32 :=
  match m with
  | (_, myId, myWindow, maxPacketSize, _) => (myId, myWindow, maxPacketSize)

/-- The size of a window adjustment. -/
def additionalBytes (m : windowAdjustMsg.Val) : UInt32 :=
  match m with
  | (_, n, _) => n

/-- The request in a message. -/
def requestOf (m : channelRequestMsg.Val) : ChannelRequest :=
  match m with
  | (_, request, wantReply, payload, _) => ⟨request, wantReply, payload⟩

/-- The number of the channel whose opening failed. -/
def failedId (m : channelOpenFailureMsg.Val) : UInt32 :=
  match m with
  | (peersId, _) => peersId

/-- `handlePacket` on the answer to an open request. -/
def openConfirmed (c : Channel) (myId myWindow maxPacketSize : UInt32) :
    Except GoString Channel :=
  match c.responseMessageReceived with
  | .error err => .error err
  | .ok c =>
    if maxPacketSize.toNat < minPacketLength ∨ 2 ^ 31 < maxPacketSize.toNat then
      .error ("ssh: invalid MaxPacketSize ".toList ++ showNat maxPacketSize.toNat
        ++ " from peer".toList)
    else
      .ok { c with
        remoteId := myId
        maxRemotePayload := maxPacketSize.toNat
        -- whether the window can take it is not looked at here
        remoteWin := (c.remoteWin.add myWindow.toNat).getD c.remoteWin }

/-- The part of `handlePacket` behind `decode`. -/
def handleMessage (c : Channel) (m : Message) : Except GoString (Channel × List MuxAct) :=
  match m with
  | .channelOpenFailure msg =>
    match c.responseMessageReceived with
    | .error err => .error err
    | .ok c => .ok (c, [.remove (failedId msg), .post m])
  | .channelOpenConfirm msg =>
    match c.openConfirmed (confirmed msg).1 (confirmed msg).2.1 (confirmed msg).2.2 with
    | .error err => .error err
    | .ok c => .ok (c, [.post m])
  | .windowAdjust msg =>
    match c.remoteWin.add (additionalBytes msg).toNat with
    | none =>
      .error ("ssh: invalid window update for ".toList ++ showNat (additionalBytes msg).toNat
        ++ " bytes".toList)
    | some w => .ok ({ c with remoteWin := w }, [])
  | .channelRequest msg => .ok (c, [.request (requestOf msg)])
  | _ => .ok (c, [.post m])

/-- **`handlePacket`** on the packet `opCode :: body`, up to its actions. -/
def handlePacket (c : Channel) (opCode : UInt8) (body : Bytes) :
    Except GoString (Channel × List MuxAct) :=
  if opCode = msgChannelData ∨ opCode = msgChannelExtendedData then c.handleData opCode body
  else if opCode = msgChannelClose then .ok (c, .sendClose :: .remove c.localId :: closeActs)
  else if opCode = msgChannelEOF then .ok (c, [.eof .stderr, .eof .stdout])
  else
    match decode opCode body with
    | .error err => .error err
    | .ok m => c.handleMessage m

/-! ## Packets of the connection -/

/-- The text of ASCII bytes. -/
def asciiText (b : Bytes) : GoString := b.map (fun c => Char.ofNat c.toNat)

/-- `handleDisconnect`, which always returns an error. -/
def handleDisconnect (packet : Bytes) : GoString :=
  match unmarshal disconnectMsg packet with
  | .error err => err
  | .ok (reason, msg, _) =>
    "ssh: disconnect reason ".toList ++ showNat reason.toNat ++ ": ".toList ++ asciiText msg

/-- **The packets that are not for a channel** (`onePacket`), `none` for those
that are. A change of keys is ignored. A channel the peer asks for and a global
message go to queues of the connection, which are taken to have room; here they
only have to be well formed. -/
def connectionPacket (opCode : UInt8) (body : Bytes) : Option (Except GoString Unit) :=
  if opCode = msgNewKeys then some (.ok ())
  else if opCode = msgDisconnect then some (.error (handleDisconnect (opCode :: body)))
  else if opCode = msgChannelOpen ∨ opCode = msgGlobalRequest ∨ opCode = msgRequestSuccess
      ∨ opCode = msgRequestFailure then
    some ((decode opCode body).map (fun _ => ()))
  else none

/-! ## Opening a channel -/

/-- What `openChannel` sends: the window and the size of packets it takes. -/
def openMsg (c : Channel) (chanType extraData : Bytes) : channelOpenMsg.Val :=
  (chanType, c.localId, UInt32.ofNat c.myWindow, UInt32.ofNat c.maxIncomingPayload, extraData, ())

/-- `openChannel`, before it waits for the answer. -/
def openChannel (localId : UInt32) : Channel :=
  { newChannel localId .outbound with maxIncomingPayload := channelMaxPacket }

/-- `handleChannelOpen`, `none` where it refuses the channel. -/
def handleChannelOpen (localId : UInt32) (m : channelOpenMsg.Val) : Option Channel :=
  match m with
  | (_, peersId, peersWindow, maxPacketSize, _) =>
    if maxPacketSize.toNat < minPacketLength ∨ 2 ^ 31 < maxPacketSize.toNat then none
    else
      let c := newChannel localId .inbound
      some { c with
        remoteId := peersId
        maxRemotePayload := maxPacketSize.toNat
        remoteWin := (c.remoteWin.add peersWindow.toNat).getD c.remoteWin }

/-- `Accept`: the channel, and the message it sends, `none` where it was
decided before. -/
def accept (c : Channel) : Option (Channel × channelOpenConfirmMsg.Val) :=
  if c.decided then none
  else
    let c := { c with maxIncomingPayload := channelMaxPacket, decided := true }
    some (c, (c.remoteId, c.localId, UInt32.ofNat c.myWindow, UInt32.ofNat c.maxIncomingPayload,
      [], ()))

/-! ## What is sent -/

/-- What is sent through `sendMessage`: the number of the channel is written
over the first field. -/
def message (remoteId : UInt32) (t : StructType) (v : t.Val) : Bytes :=
  match marshal t v with
  | tag :: body => tag :: (putUint32 remoteId.toNat ++ body.drop 4)
  | [] => []

/-- **The packets a channel sends** once it is there. -/
inductive Pkt
  | data (s : Stream) (todo : Bytes)
  | windowAdjust (additionalBytes : ℕ)
  | eof
  | close
  | confirm (m : channelOpenConfirmMsg.Val)
  | request (r : ChannelRequest)
  /-- The answer to a request. -/
  | reply (ok : Bool)

/-- The bytes of a packet. -/
def Pkt.bytes (remoteId : UInt32) : Pkt → Bytes
  | .data s todo => dataPacket remoteId s todo
  | .windowAdjust n => message remoteId windowAdjustMsg ((0 : UInt32), UInt32.ofNat n, ())
  | .eof => message remoteId channelEOFMsg (remoteId, ())
  | .close => message remoteId channelCloseMsg (remoteId, ())
  | .confirm m => message remoteId channelOpenConfirmMsg m
  | .request r => message remoteId channelRequestMsg (remoteId, r.type, r.wantReply, r.payload, ())
  | .reply true => message remoteId channelRequestSuccessMsg (remoteId, ())
  | .reply false => message remoteId channelRequestFailureMsg (remoteId, ())

/-- The number of the channel a packet is for. -/
def packetId (packet : Bytes) : UInt32 :=
  UInt32.ofNat (BigEndian.toNat ((packet.drop 1).take 4))

/-! ## Handling what was sent

What `handlePacket` makes of each packet that a channel sends, where the
window and the sizes allow it. -/

/-- Writing the number of the channel over the first field. -/
theorem message_of_marshal {remoteId : UInt32} {t : StructType} {v : t.Val} {tag : UInt8} {x : ℕ}
    {body : Bytes} (h : marshal t v = tag :: (putUint32 x ++ body)) :
    message remoteId t v = tag :: (putUint32 remoteId.toNat ++ body) := by
  rw [message, h]
  simp only []
  rw [List.drop_left' (length_putUint32 _)]

theorem bytes_windowAdjust (remoteId : UInt32) (n : ℕ) :
    (Pkt.windowAdjust n).bytes remoteId
      = 93 :: (putUint32 remoteId.toNat ++ (putUint32 (UInt32.ofNat n).toNat ++ [])) :=
  message_of_marshal (t := windowAdjustMsg) (v := ((0 : UInt32), UInt32.ofNat n, ())) rfl

theorem bytes_eof (remoteId : UInt32) :
    Pkt.eof.bytes remoteId = msgChannelEOF :: (putUint32 remoteId.toNat ++ []) :=
  message_of_marshal (t := channelEOFMsg) (v := (remoteId, ())) rfl

theorem bytes_close (remoteId : UInt32) :
    Pkt.close.bytes remoteId = msgChannelClose :: (putUint32 remoteId.toNat ++ []) :=
  message_of_marshal (t := channelCloseMsg) (v := (remoteId, ())) rfl

theorem bytes_confirm (remoteId x myId myWindow maxPacketSize : UInt32) (data : Bytes) :
    (Pkt.confirm (x, myId, myWindow, maxPacketSize, data, ())).bytes remoteId
      = 91 :: (putUint32 remoteId.toNat ++ (putUint32 myId.toNat ++ (putUint32 myWindow.toNat
        ++ (putUint32 maxPacketSize.toNat ++ (data ++ []))))) :=
  message_of_marshal (t := channelOpenConfirmMsg)
    (v := (x, myId, myWindow, maxPacketSize, data, ())) rfl

theorem bytes_request (remoteId : UInt32) (r : ChannelRequest) :
    (Pkt.request r).bytes remoteId
      = 98 :: (putUint32 remoteId.toNat ++ ((putUint32 r.type.length ++ r.type)
        ++ ([if r.wantReply then 1 else 0] ++ (r.payload ++ [])))) :=
  message_of_marshal (t := channelRequestMsg)
    (v := (remoteId, r.type, r.wantReply, r.payload, ())) rfl

theorem bytes_success (remoteId : UInt32) :
    (Pkt.reply true).bytes remoteId = 99 :: (putUint32 remoteId.toNat ++ []) :=
  message_of_marshal (t := channelRequestSuccessMsg) (v := (remoteId, ())) rfl

theorem bytes_failure (remoteId : UInt32) :
    (Pkt.reply false).bytes remoteId = 100 :: (putUint32 remoteId.toNat ++ []) :=
  message_of_marshal (t := channelRequestFailureMsg) (v := (remoteId, ())) rfl

/-- Every packet is a byte followed by the number of the channel, and the byte
is none of the connection's. -/
theorem exists_bytes (remoteId : UInt32) (p : Pkt) :
    ∃ opCode body, p.bytes remoteId = opCode :: (putUint32 remoteId.toNat ++ body)
      ∧ msgChannelOpen < opCode := by
  match p with
  | .data .stdout todo | .data .stderr todo => exact ⟨_, _, rfl, by decide⟩
  | .windowAdjust n => exact ⟨_, _, bytes_windowAdjust remoteId n, by decide⟩
  | .eof => exact ⟨_, _, bytes_eof remoteId, by decide⟩
  | .close => exact ⟨_, _, bytes_close remoteId, by decide⟩
  | .confirm (x, myId, myWindow, maxPacketSize, data, ()) =>
    exact ⟨_, _, bytes_confirm remoteId x myId myWindow maxPacketSize data, by decide⟩
  | .request r => exact ⟨_, _, bytes_request remoteId r, by decide⟩
  | .reply true => exact ⟨_, _, bytes_success remoteId, by decide⟩
  | .reply false => exact ⟨_, _, bytes_failure remoteId, by decide⟩

/-- The packets of a channel are left to it. -/
theorem connectionPacket_eq_none {opCode : UInt8} (h : msgChannelOpen < opCode) (body : Bytes) :
    connectionPacket opCode body = none := by
  have hne : ∀ b, b ≤ msgChannelOpen → opCode ≠ b := fun b hb hop =>
    absurd (hop ▸ h) (UInt8.not_lt.mpr hb)
  have hconn : ¬ (opCode = msgChannelOpen ∨ opCode = msgGlobalRequest
      ∨ opCode = msgRequestSuccess ∨ opCode = msgRequestFailure) := by
    rw [not_or, not_or, not_or]
    exact ⟨hne _ (by decide), hne _ (by decide), hne _ (by decide), hne _ (by decide)⟩
  rw [connectionPacket, if_neg (hne _ (by decide)), if_neg (hne _ (by decide)), if_neg hconn]

theorem packetId_bytes (remoteId : UInt32) (p : Pkt) : packetId (p.bytes remoteId) = remoteId := by
  obtain ⟨opCode, body, h, -⟩ := exists_bytes remoteId p
  rw [h, packetId, List.drop_one, List.tail_cons, List.take_left' (length_putUint32 _),
    toNat_putUint32 remoteId.toNat_lt, UInt32.ofNat_toNat]

theorem length_bytes_ge (remoteId : UInt32) (p : Pkt) : 5 ≤ (p.bytes remoteId).length := by
  obtain ⟨opCode, body, h, -⟩ := exists_bytes remoteId p
  rw [h, List.length_cons, List.length_append, length_putUint32]
  omega

/-- What `handleData` makes of a header and the data behind it. -/
theorem handleData_eq {c : Channel} {opCode : UInt8} {front todo : Bytes} {extended : ℕ}
    (hfront : front.length + 5 = if opCode = msgChannelExtendedData then 13 else 9)
    (hext : (if opCode = msgChannelExtendedData then
        BigEndian.toNat (((opCode :: (front ++ (putUint32 todo.length ++ todo))).drop 5).take 4)
      else 0) = extended)
    (hmax : todo.length ≤ c.maxIncomingPayload) (hwin : todo.length ≤ c.myWindow)
    (hlt : todo.length < 2 ^ 32) :
    c.handleData opCode (front ++ (putUint32 todo.length ++ todo))
      = .ok ({ c with myWindow := c.myWindow - todo.length },
          if todo = [] then [] else [.store extended todo]) := by
  have hlen := toNat_putUint32 hlt
  have hdata : (opCode :: (front ++ (putUint32 todo.length ++ todo))).drop (front.length + 5)
      = todo := by
    rw [List.drop_succ_cons, ← List.append_assoc]
    exact List.drop_left' (by rw [List.length_append, length_putUint32])
  have hlength : ((opCode :: (front ++ (putUint32 todo.length ++ todo))).drop
      (front.length + 5 - 4)).take 4 = putUint32 todo.length := by
    rw [show front.length + 5 - 4 = front.length + 1 by omega, List.drop_succ_cons,
      List.drop_left, List.take_left' (length_putUint32 _)]
  have hpacket : ¬ (opCode :: (front ++ (putUint32 todo.length ++ todo))).length
      < front.length + 5 := by
    simp only [List.length_cons, List.length_append, length_putUint32]
    omega
  unfold handleData
  simp only [← hfront]
  rw [if_neg hpacket, hext, hlength, hlen, hdata, Nat.mod_eq_of_lt hlt]
  cases todo with
  | nil => rfl
  | cons x todo =>
    rw [if_neg (by simp), if_neg (by omega), if_neg (fun h => h rfl), if_neg (by omega),
      if_neg (List.cons_ne_nil x todo)]

/-- **Data within the window is charged to it and stored.** -/
theorem handlePacket_data {c : Channel} {remoteId : UInt32} {s : Stream} {todo body : Bytes}
    {opCode : UInt8} (hp : (Pkt.data s todo).bytes remoteId = opCode :: body)
    (hmax : todo.length ≤ c.maxIncomingPayload) (hwin : todo.length ≤ c.myWindow)
    (hlt : todo.length < 2 ^ 32) :
    c.handlePacket opCode body
      = .ok ({ c with myWindow := c.myWindow - todo.length },
          if todo = [] then [] else [.store s.extendedCode todo]) := by
  cases s with
  | stdout =>
    obtain ⟨rfl, rfl⟩ := List.cons.inj hp
    rw [handlePacket, if_pos (.inl rfl)]
    exact handleData_eq (by rw [length_putUint32]; rfl) rfl hmax hwin hlt
  | stderr =>
    obtain ⟨rfl, rfl⟩ := List.cons.inj hp
    have hcode : BigEndian.toNat (((msgChannelExtendedData :: (putUint32 remoteId.toNat
          ++ (putUint32 Stream.stderr.extendedCode ++ (putUint32 todo.length ++ todo)))).drop
          5).take 4) = Stream.stderr.extendedCode := by
      rw [List.drop_succ_cons, List.drop_left' (length_putUint32 _),
        List.take_left' (length_putUint32 _)]
      rfl
    rw [handlePacket, if_pos (.inr rfl), ← List.append_assoc]
    refine handleData_eq ?_ ?_ hmax hwin hlt
    · rw [List.length_append, length_putUint32, length_putUint32]
      rfl
    · rw [if_pos rfl, List.append_assoc]
      exact hcode

/-- The messages that are decoded. -/
theorem handlePacket_of_decode {c : Channel} {opCode : UInt8} {body : Bytes} {m : Message}
    (hop : opCode ∉ [msgChannelData, msgChannelExtendedData, msgChannelClose, msgChannelEOF])
    (h : decode opCode body = .ok m) : c.handlePacket opCode body = c.handleMessage m := by
  simp only [List.mem_cons, List.not_mem_nil, or_false, not_or] at hop
  rw [handlePacket, if_neg (fun hd => hd.elim hop.1 hop.2.1), if_neg hop.2.2.1,
    if_neg hop.2.2.2, h]

/-- **A window adjustment is added to the window.** -/
theorem handlePacket_windowAdjust {c : Channel} {remoteId : UInt32} {n : ℕ} {body : Bytes}
    {opCode : UInt8} (hp : (Pkt.windowAdjust n).bytes remoteId = opCode :: body)
    (hlt : c.remoteWin.win + n < 2 ^ 32) :
    c.handlePacket opCode body
      = .ok ({ c with remoteWin := { c.remoteWin with win := c.remoteWin.win + n } }, []) := by
  have hn : (UInt32.ofNat n).toNat = n := UInt32.toNat_ofNat_of_lt' (show n < 2 ^ 32 by omega)
  rw [bytes_windowAdjust] at hp
  have hdec : decode opCode body = .ok (.windowAdjust (remoteId, UInt32.ofNat n, ())) := by
    refine decode_of_marshal hp ⟨trivial, trivial, trivial⟩ ?_
    show (93 :: (putUint32 remoteId.toNat ++ (putUint32 (UInt32.ofNat n).toNat ++ []))).length < _
    simp
  obtain ⟨rfl, -⟩ := List.cons.inj hp
  have hadd : c.remoteWin.add (UInt32.ofNat n).toNat
      = some { c.remoteWin with win := c.remoteWin.win + n } := by
    rw [hn, Window.add_of_lt hlt]
  rw [handlePacket_of_decode (by decide) hdec]
  show (match c.remoteWin.add (UInt32.ofNat n).toNat with
    | none => Except.error _
    | some w => _) = _
  rw [hadd]

theorem handlePacket_eof {c : Channel} {remoteId : UInt32} {body : Bytes} {opCode : UInt8}
    (hp : Pkt.eof.bytes remoteId = opCode :: body) :
    c.handlePacket opCode body = .ok (c, [.eof .stderr, .eof .stdout]) := by
  rw [bytes_eof] at hp
  obtain ⟨rfl, -⟩ := List.cons.inj hp
  rfl

theorem handlePacket_close {c : Channel} {remoteId : UInt32} {body : Bytes} {opCode : UInt8}
    (hp : Pkt.close.bytes remoteId = opCode :: body) :
    c.handlePacket opCode body = .ok (c, .sendClose :: .remove c.localId :: closeActs) := by
  rw [bytes_close] at hp
  obtain ⟨rfl, -⟩ := List.cons.inj hp
  rfl

/-- A request is handed on. -/
theorem handlePacket_request {c : Channel} {remoteId : UInt32} {r : ChannelRequest} {body : Bytes}
    {opCode : UInt8} (hp : (Pkt.request r).bytes remoteId = opCode :: body)
    (hlen : ((Pkt.request r).bytes remoteId).length ≤ maxPacket) :
    c.handlePacket opCode body = .ok (c, [.request r]) := by
  have hdec : decode opCode body
      = .ok (.channelRequest (remoteId, r.type, r.wantReply, r.payload, ())) := by
    rw [bytes_request] at hp hlen
    refine decode_of_marshal hp ⟨trivial, trivial, trivial, trivial, trivial⟩ ?_
    exact lt_of_le_of_lt hlen (by decide)
  rw [bytes_request] at hp
  obtain ⟨rfl, -⟩ := List.cons.inj hp
  rw [handlePacket_of_decode (by decide) hdec]
  rfl

/-- The answer to a request is handed on. -/
theorem handlePacket_reply {c : Channel} {remoteId : UInt32} {ok : Bool} {body : Bytes}
    {opCode : UInt8} (hp : (Pkt.reply ok).bytes remoteId = opCode :: body) :
    ∃ m, c.handlePacket opCode body = .ok (c, [.post m]) := by
  cases ok with
  | true =>
    rw [bytes_success] at hp
    have hdec : decode opCode body = .ok (.channelRequestSuccess (remoteId, ())) := by
      refine decode_of_marshal hp ⟨trivial, trivial⟩ ?_
      show (99 :: (putUint32 remoteId.toNat ++ [])).length < _
      simp
    obtain ⟨rfl, -⟩ := List.cons.inj hp
    exact ⟨_, by rw [handlePacket_of_decode (by decide) hdec]; rfl⟩
  | false =>
    rw [bytes_failure] at hp
    have hdec : decode opCode body = .ok (.channelRequestFailure (remoteId, ())) := by
      refine decode_of_marshal hp ⟨trivial, trivial⟩ ?_
      show (100 :: (putUint32 remoteId.toNat ++ [])).length < _
      simp
    obtain ⟨rfl, -⟩ := List.cons.inj hp
    exact ⟨_, by rw [handlePacket_of_decode (by decide) hdec]; rfl⟩

/-- **The answer to an open request** sets the number of the channel, the
size of packets and the window. -/
theorem handlePacket_confirm {c : Channel} {remoteId x myId myWindow maxPacketSize : UInt32}
    {body : Bytes} {opCode : UInt8}
    (hp : (Pkt.confirm (x, myId, myWindow, maxPacketSize, [], ())).bytes remoteId = opCode :: body)
    (hdir : c.direction = .outbound) (hdec : c.decided = false)
    (hmin : minPacketLength ≤ maxPacketSize.toNat) (hmax : maxPacketSize.toNat ≤ 2 ^ 31)
    (hwin : c.remoteWin.win = 0) :
    c.handlePacket opCode body
      = .ok ({ c with
            decided := true
            remoteId := myId
            maxRemotePayload := maxPacketSize.toNat
            remoteWin := { c.remoteWin with win := myWindow.toNat } },
          [.post (.channelOpenConfirm (remoteId, myId, myWindow, maxPacketSize, [], ()))]) := by
  rw [bytes_confirm] at hp
  have hdecode : decode opCode body
      = .ok (.channelOpenConfirm (remoteId, myId, myWindow, maxPacketSize, [], ())) := by
    refine decode_of_marshal hp ⟨trivial, trivial, trivial, trivial, trivial, trivial⟩ ?_
    show (91 :: (putUint32 remoteId.toNat ++ (putUint32 myId.toNat ++ (putUint32 myWindow.toNat
        ++ (putUint32 maxPacketSize.toNat ++ ([] ++ [])))))).length < _
    simp
  obtain ⟨rfl, -⟩ := List.cons.inj hp
  have hadd : c.remoteWin.add myWindow.toNat
      = some { c.remoteWin with win := myWindow.toNat } := by
    have h := Window.add_of_lt (w := c.remoteWin) (n := myWindow.toNat)
      (by rw [hwin]; have := myWindow.toNat_lt; omega)
    rw [h, hwin, Nat.zero_add]
  have hopen : c.openConfirmed myId myWindow maxPacketSize = .ok { c with
      decided := true
      remoteId := myId
      maxRemotePayload := maxPacketSize.toNat
      remoteWin := { c.remoteWin with win := myWindow.toNat } } := by
    rw [openConfirmed, responseMessageReceived, if_neg (by rw [hdir]; nofun),
      if_neg (by rw [hdec]; exact Bool.false_ne_true)]
    simp only []
    rw [if_neg (by omega), hadd]
    rfl
  rw [handlePacket_of_decode (by decide) hdecode]
  show (match c.openConfirmed myId myWindow maxPacketSize with
    | .error err => Except.error err
    | .ok c => _) = _
  rw [hopen]

end Channel

end Ssh
