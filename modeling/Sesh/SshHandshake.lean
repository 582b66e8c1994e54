import Sesh.SshKex

/-!
# Changing keys while a connection is in use

`handshakeTransport` (`ssh/handshake.go`) lets a connection change its keys at
any time. Either side may begin, both may begin at once, and there are any
number of goroutines that write packets meanwhile. One goroutine of each side
reads: it takes part in a key exchange when the other side's `KexInit`
arrives, and hands every other packet on. A side that has sent its own
`KexInit` holds back all packets but those of the key exchange until it has
read the other side's `NewKeys`.

`Ssh.duo` is the machine of two such sides with the bytes on the wire between
them. Everything random is a parameter: the cookies and private values by the
number of the key exchange, the padding by the step. The main goroutine of a
side begins as `clientHandshake` and `serverHandshake` do, logs in, and then
leaves `incoming` to `mux.loop`. Whichever of them reads `incoming` also writes
packets of its own, and does not read while it waits with one. What is written,
and when, is up to the schedule.

A login takes `NewKeys` for an answer it cannot use, and closes the connection
(`MainPc.failed`). What that does to the other side is not followed here; nor
is a login that fails for another reason, and the network takes every write.

What is on the wire is described by two relations on the packets in flight.
`Ssh.Pipe` says that the bytes are their frames under the right keys, and
`Ssh.Flow` that they are the messages of key exchanges in their order, with
other packets only between one exchange and the next. Both sides keep to a
place in that order which their own state determines (`Party.sent`,
`Party.recv`), and that is the whole invariant.
-/

namespace Ssh

/-! ## One side -/

def msgIgnore : UInt8 := 2
def msgDebug : UInt8 := 4
def msgKexInit : UInt8 := 20

def supportedCompressions : List Bytes := [ascii "none"]

/-- **What one side of a connection is set up with.** -/
structure Peer where
  keyExchanges : List Bytes
  ciphers : List Bytes
  macs : List Bytes
  rekeyThreshold : UInt64
  /-- A side with host keys is a server. -/
  hostKeys : List HostSigner
  hostKeyAlgorithms : List Bytes
  parsePublicKey : Bytes → Except GoString PublicKey
  /-- `none` where it has nothing to complain about. -/
  hostKeyCallback : PublicKey → Option GoString
  clientVersion : Bytes
  serverVersion : Bytes
  /-- The cookie of each key exchange. -/
  cookie : ℕ → { b : Bytes // b.length = 16 }
  /-- What the private value of each key exchange is made of. -/
  secret : ℕ → Rand

namespace Peer

/-- `len(t.hostKeys) > 0`. -/
def isServer (p : Peer) : Bool := !p.hostKeys.isEmpty

/-- The `KexInit` message of a key exchange. -/
def offer (p : Peer) (i : ℕ) : KexInit where
  cookie := p.cookie i
  kexAlgos := p.keyExchanges
  serverHostKeyAlgos := if p.isServer then p.hostKeys.map (fun k => k.type) else p.hostKeyAlgorithms
  ciphersClientServer := p.ciphers
  ciphersServerClient := p.ciphers
  macsClientServer := p.macs
  macsServerClient := p.macs
  compressionClientServer := supportedCompressions
  compressionServerClient := supportedCompressions
  languagesClientServer := []
  languagesServerClient := []
  firstKexFollows := false
  reserved := 0

/-- The loop of `server`: the last key of that type. -/
def hostKeyFor (p : Peer) (type : Bytes) : Option HostSigner :=
  p.hostKeys.reverse.find? (fun k => decide (type = k.type))

/-- In the place of a signer that is missing. It complains about nothing, so that
what `kex.Server` finds wrong before it uses its signer is what is wrong. -/
def nilSigner : HostSigner := ⟨[], [], fun _ => .ok ⟨[], []⟩⟩

/-- The checks of `client`. -/
def checkHostKey (p : Peer) (r : KexResult) : Option GoString :=
  match p.parsePublicKey r.hostKey with
  | .error err => some err
  | .ok key =>
    match verifyHostKeySignature key r with
    | some err => some err
    | none => p.hostKeyCallback key

end Peer

/-- **Where `readLoop` stands.** -/
inductive LoopPc
  /-- Before the next packet. -/
  | turn
  | reading
  /-- The other side's `KexInit` was read. -/
  | gotInit (packet : Bytes)
  /-- Both have been sent. -/
  | entered (packet : Bytes)
  /-- The other side has guessed, and guessed wrong. -/
  | skipping (n : Negotiated)
  | exchanging (n : Negotiated)
  | awaitReply (n : Negotiated)
  | agreed (algs : Algorithms) (r : KexResult)
  | awaitNewKeys
  | deliver (packet : Bytes)
  /-- It has returned. -/
  | ended (err : GoString)
  /-- The program has panicked. -/
  | crashed

/-- **Where the goroutine stands that reads `incoming`**: the main goroutine in
its handshake, and then `mux.loop`. -/
inductive MainPc
  | opening
  | awaiting
  /-- The first `NewKeys` was there: `clientAuthenticate`, or what is left of
  `serverHandshake`. -/
  | login
  /-- `mux.loop`, which ignores `NewKeys`. -/
  | ready
  | refused (err : GoString)
  /-- The login was handed another `NewKeys`, and has closed the connection. The
  one login that goes on is left out, that of a server in the middle of a
  keyboard-interactive challenge. -/
  | failed
  deriving DecidableEq

namespace MainPc

/-- Whether it takes packets from `incoming`. -/
def takes : MainPc → Bool
  | awaiting => true
  | login => true
  | ready => true
  | _ => false

/-- Whether it writes packets. -/
def talks : MainPc → Bool
  | login => true
  | ready => true
  | _ => false

/-- Whether it has closed the connection. -/
def closed : MainPc → Bool
  | refused _ => true
  | failed => true
  | _ => false

/-- What a packet from `incoming` makes of it. -/
def took (packet : Bytes) : MainPc → MainPc
  | awaiting =>
    if packet.head? = some msgNewKeys then login
    else refused (unexpectedMessageError msgNewKeys.toNat (packet.head?.getD 0).toNat)
  | login => if packet.head? = some msgNewKeys then failed else login
  | pc => pc

end MainPc

/-- **`handshakeTransport`** with its goroutines and the connection under it.
The last four fields are a record of what happened. -/
structure Party where
  reader : ConnectionState
  writer : ConnectionState
  sessionID : Option Bytes
  /-- `sentInitMsg`; `sentInitPacket` is its packet. -/
  sentInit : Option KexInit
  readSinceKex : UInt64
  writtenSinceKex : UInt64
  loop : LoopPc
  main : MainPc
  incoming : List Bytes
  /-- What the goroutine that reads `incoming` stands with in the loop of
  `writePacket`. -/
  replying : Option Bytes
  /-- What the other goroutines in that loop want to write. -/
  waiting : List Bytes
  /-- The number of key exchanges it has begun. -/
  kexes : ℕ
  /-- Every packet that was written. -/
  wrote : List Bytes
  /-- Those that `writePacket` was called with. -/
  accepted : List Bytes
  /-- Those that were read and belong to no key exchange. -/
  got : List Bytes
  /-- Those that were taken from `incoming`. -/
  received : List Bytes

/-- What the goroutines of one side do. -/
inductive PartyAct
  | loop
  | open
  | read
  /-- The goroutine that reads `incoming` writes. -/
  | reply (p : Bytes)
  /-- It finds that it need not wait any longer. -/
  | resume
  /-- The login is done. -/
  | enter
  /-- Another goroutine writes. -/
  | write (p : Bytes)
  /-- One in the loop of `writePacket` finds that it need not wait. -/
  | wake (i : ℕ)

/-- Who calls `writePacket`. -/
inductive Caller
  | reader
  | other

namespace Party

variable (prim : Primitives) (p : Peer)

def new : Party where
  reader := ⟨noneCipher, 0, none⟩
  writer := ⟨noneCipher, 0, none⟩
  sessionID := none
  sentInit := none
  readSinceKex := 0
  writtenSinceKex := 0
  loop := .turn
  main := .opening
  incoming := []
  replying := none
  waiting := []
  kexes := 0
  wrote := []
  accepted := []
  got := []
  received := []

def setLoop (s : Party) (pc : LoopPc) : Party := { s with loop := pc }

/-- A packet is put on the wire. -/
def written (s : Party) (packet : Bytes) (w : ConnectionState) : Party :=
  { s with writer := w, wrote := s.wrote ++ [packet] }

/-- `conn.writePacket`. -/
def put (s : Party) (rand : Rand) (packet : Bytes) : WriteEnd Party :=
  (s.writer.writePacket rand packet).map (s.written packet)

/-- `conn.readPacket`. -/
def get (s : Party) (inp : Bytes) : Option (ReadEnd Party) :=
  (s.reader.readPacket inp).map (.map (fun c => { s with reader := c }))

/-- A `KexInit` was sent. -/
def initiated (s : Party) (m : KexInit) : Party :=
  { s with sentInit := some m, kexes := s.kexes + 1 }

/-- `sendKexInitLocked`. -/
def sendKexInit (s : Party) (rand : Rand) : WriteEnd Party :=
  if s.sentInit.isSome then .ok [] s
  else (s.put rand (p.offer s.kexes).marshal).map (fun s' => s'.initiated (p.offer s.kexes))

/-- How the loop goes on behind a write: the side, what is left to read, and
what was written. -/
def goOn (s : Party) (rest : Bytes) (w : WriteEnd Party) (pc : LoopPc) : Party × Bytes × Bytes :=
  match w with
  | .ok out s' => (s'.setLoop pc, rest, out)
  | .error err => (s.setLoop (.ended err), rest, [])
  | .crash => (s.setLoop .crashed, rest, [])

/-- How the loop goes on with a packet. -/
def taking (s : Party) (inp : Bytes) (f : Party → Bytes → Bytes → Party × Bytes × Bytes) :
    Option (Party × Bytes × Bytes) :=
  match s.get inp with
  | none => none
  | some (.ok packet rest s') => some (f s' packet rest)
  | some (.error err) => some (s.setLoop (.ended err), inp, [])
  | some .crash => some (s.setLoop .crashed, inp, [])

/-- `prepareKeyChange`, `none` where it panics. A client reads with the keys
of the server. Nothing waits in the two channels of ciphers here: only a key
exchange puts a cipher there, and it ends when both were taken. -/
def prepareKeyChange (s : Party) (algs : Algorithms) (r : KexResult) : Option Party :=
  let sessionID := s.sessionID.getD r.H
  let (readDir, writeDir) := if p.isServer then (clientKeys, serverKeys) else (serverKeys, clientKeys)
  match newPacketCipher prim readDir algs.r r sessionID,
      newPacketCipher prim writeDir algs.w r sessionID with
  | some c, some c' => some { s with
      sessionID := some sessionID
      reader := { s.reader with pendingKeyChange := some c }
      writer := { s.writer with pendingKeyChange := some c' } }
  | _, _ => none

/-- The key exchange is over. -/
def finished (s : Party) : Party :=
  { s with sentInit := none, writtenSinceKex := 0, readSinceKex := 0, loop := .deliver [msgNewKeys] }

/-- A packet of `conn` that `readOnePacket` looks at. -/
def seen (s : Party) (packet : Bytes) : Party :=
  let s := { s with readSinceKex := s.readSinceKex + UInt64.ofNat packet.length }
  if packet.head? = some msgKexInit then s.setLoop (.gotInit packet)
  else { s with loop := .deliver packet, got := s.got ++ [packet] }

/-- **A step of `readLoop`.** -/
def loopStep (s : Party) (rand : Rand) (inp : Bytes) : Option (Party × Bytes × Bytes) :=
  match s.loop with
  | .turn =>
    if p.rekeyThreshold < s.readSinceKex then some (s.goOn inp (s.sendKexInit p rand) .reading)
    else some (s.setLoop .reading, inp, [])
  | .reading => s.taking inp (fun s packet rest => (s.seen packet, rest, []))
  | .gotInit packet => some (s.goOn inp (s.sendKexInit p rand) (.entered packet))
  | .entered packet =>
    match s.sentInit with
    | none => some (s.setLoop .crashed, inp, [])
    | some myInit =>
      match negotiate p.isServer p.clientVersion p.serverVersion myInit myInit.marshal packet with
      | .error err => some (s.setLoop (.ended err), inp, [])
      | .ok n =>
        if n.otherInit.firstKexFollows ∧ n.otherInit.kexAlgos.head? ≠ some n.algs.kex then
          some (s.setLoop (.skipping n), inp, [])
        else some (s.setLoop (.exchanging n), inp, [])
  | .skipping n => s.taking inp (fun s _ rest => (s.setLoop (.exchanging n), rest, []))
  | .exchanging n =>
    match prim.kexAlgoMap n.algs.kex with
    | none => some (s.setLoop (.ended ("ssh: unexpected key exchange algorithm ".toList
        ++ n.algs.kex.map (fun x => Char.ofNat x.toNat))), inp, [])
    | some k =>
      if p.isServer then
        s.taking inp (fun s packet rest =>
          match k.server (p.secret (s.kexes - 1)) n.magics
              ((p.hostKeyFor n.algs.hostKey).getD Peer.nilSigner) packet with
          | .error err => (s.setLoop (.ended err), rest, [])
          | .ok (r, reply) =>
            -- a nil signer is asked for its key when the message has passed
            if (p.hostKeyFor n.algs.hostKey).isNone then (s.setLoop .crashed, rest, [])
            else s.goOn rest (s.put rand reply) (.agreed n.algs r))
      else some (s.goOn inp (s.put rand (k.clientInit (p.secret (s.kexes - 1)))) (.awaitReply n))
  | .awaitReply n =>
    match prim.kexAlgoMap n.algs.kex with
    | none => none
    | some k =>
      s.taking inp (fun s packet rest =>
        match k.client (p.secret (s.kexes - 1)) n.magics packet with
        | .error err => (s.setLoop (.ended err), rest, [])
        | .ok r =>
          match p.checkHostKey r with
          | some err => (s.setLoop (.ended err), rest, [])
          | none => (s.setLoop (.agreed n.algs r), rest, []))
  | .agreed algs r =>
    match s.prepareKeyChange prim p algs r with
    | none => some (s.setLoop .crashed, inp, [])
    | some s => some (s.goOn inp (s.put rand [msgNewKeys]) .awaitNewKeys)
  | .awaitNewKeys =>
    s.taking inp (fun s packet rest =>
      if packet.head? = some msgNewKeys then (s.finished, rest, [])
      else (s.setLoop (.ended (unexpectedMessageError msgNewKeys.toNat
        (packet.head?.getD 0).toNat)), rest, []))
  | .deliver packet =>
    if packet.head? = some msgIgnore ∨ packet.head? = some msgDebug then
      some (s.setLoop .turn, inp, [])
    -- the channel holds 16 packets
    else if s.incoming.length < 16 then
      some ({ s with loop := .turn, incoming := s.incoming ++ [packet] }, inp, [])
    else none
  | .ended _ => none
  | .crashed => none

/-- The end of `writePacket`, where nothing holds a packet back. -/
def commit (s : Party) (rand : Rand) (packet : Bytes) : Party × Bytes :=
  let s := { s with writtenSinceKex := s.writtenSinceKex + UInt64.ofNat packet.length }
  match packet.head? with
  -- an index is out of range
  | none => (s.setLoop .crashed, [])
  | some b =>
    -- "ssh: only handshakeTransport can send kexInit", "… newKeys"
    if b = msgKexInit ∨ b = msgNewKeys then (s, [])
    else
      match s.put rand packet with
      | .ok out s' => ({ s' with accepted := s'.accepted ++ [packet] }, out)
      | .error _ => (s, [])
      | .crash => (s.setLoop .crashed, [])

/-- A goroutine waits in `writePacket`. -/
def await (s : Party) (packet : Bytes) : Caller → Party
  | .reader => { s with replying := some packet }
  | .other => { s with waiting := s.waiting ++ [packet] }

/-- `writePacket`, until it waits or returns. -/
def writePacket (s : Party) (rand : Rand) (caller : Caller) (packet : Bytes) : Party × Bytes :=
  if p.rekeyThreshold < s.writtenSinceKex then
    match s.sendKexInit p rand with
    | .ok out s' => (s'.await packet caller, out)
    -- the error is dropped
    | .error _ => s.commit rand packet
    | .crash => (s.setLoop .crashed, [])
  else if s.sentInit.isSome then (s.await packet caller, [])
  else s.commit rand packet

/-- A packet is taken from `incoming`. -/
def took (s : Party) (packet : Bytes) (packets : List Bytes) : Party :=
  { s with
    incoming := packets
    received := s.received ++ [packet]
    main := s.main.took packet }

/-- Whether the loop goes on. -/
def running (s : Party) : Bool :=
  match s.loop with
  | .ended _ => false
  | .crashed => false
  | _ => true

/-- **A step of one side**: what it becomes, what is left of what it reads, and
what it writes. A side whose loop has ended or whose connection it has closed
takes no step. -/
def step (s : Party) (a : PartyAct) (rand : Rand) (inp : Bytes) :
    Option (Party × Bytes × Bytes) :=
  if s.running && !s.main.closed then
    match a with
    | .loop => s.loopStep prim p rand inp
    | .open =>
      if s.main = .opening then
        match s.sendKexInit p rand with
        | .ok out s' => some ({ s' with main := .awaiting }, inp, out)
        | .error err => some ({ s with main := .refused err }, inp, [])
        | .crash => some (s.setLoop .crashed, inp, [])
      else none
    | .read =>
      match s.incoming with
      | [] => none
      | packet :: packets =>
        if s.main.takes && s.replying.isNone then some (s.took packet packets, inp, [])
        else none
    | .reply packet =>
      if s.main.talks && s.replying.isNone then
        let (s', out) := s.writePacket p rand .reader packet
        some (s', inp, out)
      else none
    | .resume =>
      match s.replying with
      | none => none
      | some packet =>
        if s.sentInit.isNone then
          let (s', out) := { s with replying := none }.commit rand packet
          some (s', inp, out)
        else none
    | .enter =>
      if s.main = .login ∧ s.replying = none then some ({ s with main := .ready }, inp, [])
      else none
    | .write packet =>
      if s.main = .ready then
        let (s', out) := s.writePacket p rand .other packet
        some (s', inp, out)
      else none
    | .wake i =>
      match s.waiting[i]? with
      | none => none
      | some packet =>
        if s.sentInit.isNone then
          let (s', out) := { s with waiting := s.waiting.eraseIdx i }.commit rand packet
          some (s', inp, out)
        else none
  else none

end Party

/-! ## Two sides -/

inductive Role
  | client
  | server
  deriving DecidableEq

def Role.peer : Role → Role
  | client => server
  | server => client

@[simp] theorem Role.peer_peer (r : Role) : r.peer.peer = r := by cases r <;> rfl

@[simp] theorem Role.peer_ne (r : Role) : r.peer ≠ r := by cases r <;> nofun

/-- **Two sides and the bytes on their way to each.** -/
structure Duo where
  party : Role → Party
  wire : Role → Bytes

structure DuoLabel where
  role : Role
  act : PartyAct
  /-- The padding of what is written in this step. -/
  rand : Rand

/-- A step of one side. -/
def Duo.step (prim : Primitives) (peer : Role → Peer) (x : Duo) (l : DuoLabel) : Option Duo :=
  match (x.party l.role).step prim (peer l.role) l.act l.rand (x.wire l.role) with
  | none => none
  | some (s, rest, out) => some
    { party := Function.update x.party l.role s
      wire := Function.update (Function.update x.wire l.role rest) l.role.peer
        (x.wire l.role.peer ++ out) }

/-- **A connection whose keys change.** -/
def duo (prim : Primitives) (peer : Role → Peer) : Machine Duo DuoLabel where
  start := ⟨fun _ => Party.new, fun _ => []⟩
  step := Duo.step prim peer

/-! ## The order of packets -/

/-- **A packet of no key exchange.** -/
def Plain (p : Bytes) : Prop :=
  p ≠ [] ∧ p.head? ≠ some msgKexInit ∧ p.head? ≠ some msgNewKeys

/-- **Packets in the order of a script** of key exchanges of three packets
each: from the `n`-th packet of the script to the `m`-th, with other packets,
which are listed apart, only between two exchanges and never before the first
one. -/
inductive Flow (script : ℕ → Bytes) : ℕ → List Bytes → List Bytes → ℕ → Prop
  | nil (n : ℕ) : Flow script n [] [] n
  | plain {n m : ℕ} {ps as : List Bytes} (p : Bytes) (hp : Plain p) (h₃ : n % 3 = 0) (h₀ : 0 < n)
      (h : Flow script n ps as m) : Flow script n (p :: ps) (p :: as) m
  | kex {n m : ℕ} {ps as : List Bytes} (h : Flow script (n + 1) ps as m) :
      Flow script n (script n :: ps) as m

namespace Flow

variable {script : ℕ → Bytes} {n m : ℕ} {ps as : List Bytes}

/-- The next packet of the script at the end. -/
theorem concat_kex (h : Flow script n ps as m) : Flow script n (ps ++ [script m]) as (m + 1) := by
  induction h with
  | nil n => exact .kex (.nil _)
  | plain p hp h₃ h₀ _ ih => exact .plain p hp h₃ h₀ ih
  | kex _ ih => exact .kex ih

/-- Another packet at the end. -/
theorem concat_plain (h : Flow script n ps as m) {p : Bytes} (hp : Plain p) (h₃ : m % 3 = 0)
    (h₀ : 0 < m) : Flow script n (ps ++ [p]) (as ++ [p]) m := by
  induction h with
  | nil n => exact .plain p hp h₃ h₀ (.nil _)
  | plain q hq h₃' h₀' _ ih => exact .plain q hq h₃' h₀' (ih h₃ h₀)
  | kex _ ih => exact .kex (ih h₃ h₀)

theorem le (h : Flow script n ps as m) : n ≤ m := by
  induction h with
  | nil n => exact Nat.le_refl n
  | plain _ _ _ _ _ ih => exact ih
  | kex _ ih => exact Nat.le_of_succ_le ih

end Flow

/-! ## Two sides that come to terms -/

/-- **A client and a server**, with what they will agree on. -/
structure Duet where
  prim : Primitives
  peer : Role → Peer
  algs : Algorithms
  k : Exchange
  signer : HostSigner

namespace Duet

variable (D : Duet)

/-- What both put in front of what they hash. -/
def magics (i : ℕ) : HandshakeMagics :=
  ⟨(D.peer .client).clientVersion, (D.peer .client).serverVersion,
    ((D.peer .client).offer i).marshal, ((D.peer .server).offer i).marshal⟩

/-- The client's public value. -/
def clientMsg (i : ℕ) : Bytes := D.k.clientInit ((D.peer .client).secret i)

/-- The result of a key exchange, and the server's reply. -/
def outcome (i : ℕ) : KexResult × Bytes :=
  match D.k.server ((D.peer .server).secret i) (D.magics i) D.signer (D.clientMsg i) with
  | .ok x => x
  | .error _ => (⟨[], [], [], [], D.k.hash⟩, [])

/-- The second packet of a key exchange. -/
def msg (i : ℕ) : Role → Bytes
  | .client => D.clientMsg i
  | .server => (D.outcome i).2

/-- **The packets of all key exchanges** that one side writes. -/
def script (r : Role) (n : ℕ) : Bytes :=
  if n % 3 = 0 then ((D.peer r).offer (n / 3)).marshal
  else if n % 3 = 1 then D.msg (n / 3) r
  else [msgNewKeys]

/-- The first hash. -/
def sessionID : Bytes := (D.outcome 0).1.H

/-- Whose keys one side writes with. -/
def dirFrom : Role → Direction
  | .client => clientKeys
  | .server => serverKeys

/-- **The keys one side writes with**, by the number of the key change. -/
def keysFrom (r : Role) (epoch : ℕ) : PacketCipher :=
  (newPacketCipher D.prim (dirFrom r) D.algs.w (D.outcome (epoch - 1)).1 D.sessionID).getD noneCipher

/-- What is negotiated in a key exchange. -/
def negotiated (r : Role) (i : ℕ) : Negotiated :=
  ⟨(D.peer r.peer).offer i, D.algs, D.magics i⟩

/-- **Two sides that can agree**: they have algorithms in common that they
know, the client trusts the server, and no message is too large. -/
structure Compatible : Prop where
  lawful : D.prim.Lawful
  client : (D.peer .client).isServer = false
  server : (D.peer .server).isServer = true
  clientVersion : (D.peer .server).clientVersion = (D.peer .client).clientVersion
  serverVersion : (D.peer .server).serverVersion = (D.peer .client).serverVersion
  agree : ∀ i, findAgreedAlgorithms ((D.peer .client).offer i) ((D.peer .server).offer i)
    = .ok D.algs
  kex : D.prim.kexAlgoMap D.algs.kex = some D.k
  cipher : (D.prim.cipherModes D.algs.w.cipher).isSome
  mac : (D.prim.macModes D.algs.w.mac).isSome
  hostKey : (D.peer .server).hostKeyFor D.algs.hostKey = some D.signer
  signs : ∀ data, ∃ sig, D.signer.sign data = .ok sig
  trusts : ∀ i, (D.peer .client).checkHostKey (D.outcome i).1 = none
  fits : ∀ r i, ((D.peer r).offer i).Fits
  small : ∀ r n, (D.script r n).length + 20 ≤ maxPacket

variable {D}

theorem script_zero (r : Role) (i : ℕ) : D.script r (3 * i) = ((D.peer r).offer i).marshal := by
  rw [script, if_pos (Nat.mul_mod_right 3 i), Nat.mul_div_cancel_left i (by decide)]

theorem script_one (r : Role) (i : ℕ) : D.script r (3 * i + 1) = D.msg i r := by
  rw [script, if_neg (by omega), if_pos (by omega), show (3 * i + 1) / 3 = i by omega]

theorem script_two (r : Role) (i : ℕ) : D.script r (3 * i + 2) = [msgNewKeys] := by
  rw [script, if_neg (by omega), if_neg (by omega)]

namespace Compatible

variable (hD : D.Compatible)
include hD

/-- Offers are the same for both directions, and so is what is agreed on. -/
theorem algs_r : D.algs.r = D.algs.w := by
  have hagree := findAgreedAlgorithms_eq_ok_iff.mp (hD.agree 0)
  obtain ⟨-, -, hwc, hrc, hwm, hrm, hwz, hrz⟩ := hagree
  have hc := Except.ok.inj ((findCommon_what hrc).symm.trans hwc)
  have hm := Except.ok.inj ((findCommon_what hrm).symm.trans hwm)
  have hz := Except.ok.inj ((findCommon_what hrz).symm.trans hwz)
  generalize D.algs.r = ar at hc hm hz
  generalize D.algs.w = aw at hc hm hz
  obtain ⟨_, _, _⟩ := ar
  obtain ⟨_, _, _⟩ := aw
  exact DirectionAlgorithms.mk.injEq .. ▸ ⟨hc, hm, hz⟩

/-- **A key exchange between the two**, seen from both sides. -/
theorem outcome_spec (i : ℕ) :
    D.k.server ((D.peer .server).secret i) (D.magics i) D.signer (D.clientMsg i)
        = .ok (D.outcome i)
      ∧ D.k.client ((D.peer .client).secret i) (D.magics i) (D.outcome i).2
        = .ok (D.outcome i).1
      ∧ (D.clientMsg i).head? = some 30 ∧ (D.outcome i).2.head? = some 31 := by
  have hhonest := D.prim.honest_of_kexAlgoMap hD.lawful hD.kex
  have hmax : maxPacket < 2 ^ 32 := by decide
  have hinit : (D.clientMsg i).length < 2 ^ 32 := by
    have hsmall := hD.small .client (3 * i + 1)
    rw [script_one] at hsmall
    have : (D.clientMsg i).length + 20 ≤ maxPacket := hsmall
    omega
  have hreply : (D.outcome i).2.length < 2 ^ 32 := by
    have hsmall := hD.small .server (3 * i + 1)
    rw [script_one] at hsmall
    have : (D.outcome i).2.length + 20 ≤ maxPacket := hsmall
    omega
  obtain ⟨r, reply, t, sig, hserver, -, -, -, -, htag, hclient⟩ :=
    hhonest.run ((D.peer .client).secret i) ((D.peer .server).secret i) (D.magics i) hD.signs hinit
  have hout : D.outcome i = (r, reply) := by
    rw [outcome]
    show (match D.k.server _ _ _ (D.k.clientInit _) with | .ok x => x | .error _ => _) = _
    rw [hserver]
  rw [hout] at hreply ⊢
  refine ⟨hserver, (hclient hreply).1, hhonest.initTag _, ?_⟩
  rw [htag]
  exact hhonest.replyTag _ _ _

/-- What both make of the two offers. -/
theorem negotiate_eq (r : Role) (i : ℕ) :
    negotiate (D.peer r).isServer (D.peer r).clientVersion (D.peer r).serverVersion
        ((D.peer r).offer i) ((D.peer r).offer i).marshal ((D.peer r.peer).offer i).marshal
      = .ok (D.negotiated r i) := by
  have hread := KexInit.unmarshal_marshal (hD.fits r.peer i)
  cases r with
  | client =>
    rw [hD.client]
    exact negotiate_client_iff.mpr ⟨hread, hD.agree i, rfl⟩
  | server =>
    rw [hD.server, hD.clientVersion, hD.serverVersion]
    exact negotiate_server_iff.mpr ⟨hread, hD.agree i, rfl⟩

/-- There are keys behind every key exchange. -/
theorem keysFrom_succ (r : Role) (i : ℕ) :
    newPacketCipher D.prim (dirFrom r) D.algs.w (D.outcome i).1 D.sessionID
      = some (D.keysFrom r (i + 1)) := by
  obtain ⟨c, hc⟩ := exists_newPacketCipher hD.cipher hD.mac (dirFrom r) (D.outcome i).1 D.sessionID
  rw [keysFrom, Nat.add_sub_cancel, hc]
  rfl

/-- How a packet of the script begins. -/
theorem script_head (r : Role) (n : ℕ) :
    D.script r n ≠ [] ∧ ((D.script r n).head? = some msgKexInit ↔ n % 3 = 0)
      ∧ ((D.script r n).head? = some msgNewKeys ↔ n % 3 = 2) := by
  have hhead : n % 3 = 0 ∧ (D.script r n).head? = some 20 ∨ n % 3 = 1
      ∧ ((D.script r n).head? = some 30 ∨ (D.script r n).head? = some 31)
      ∨ n % 3 = 2 ∧ (D.script r n).head? = some 21 := by
    have hlt := Nat.mod_lt n (show 3 > 0 by decide)
    rw [script]
    by_cases h₀ : n % 3 = 0
    · rw [if_pos h₀]
      exact .inl ⟨h₀, rfl⟩
    by_cases h₁ : n % 3 = 1
    · rw [if_neg h₀, if_pos h₁]
      obtain ⟨-, -, h30, h31⟩ := hD.outcome_spec (n / 3)
      refine .inr (.inl ⟨h₁, ?_⟩)
      cases r with
      | client => exact .inl h30
      | server => exact .inr h31
    · rw [if_neg h₀, if_neg h₁]
      exact .inr (.inr ⟨by omega, rfl⟩)
  have hne : ∀ b, (D.script r n).head? = some b → D.script r n ≠ [] := by
    intro b hb hnil
    rw [hnil] at hb
    cases hb
  rcases hhead with ⟨h, h'⟩ | ⟨h, h' | h'⟩ | ⟨h, h'⟩
  · exact ⟨hne _ h', by rw [h', h]; decide, by rw [h', h]; decide⟩
  · exact ⟨hne _ h', by rw [h', h]; decide, by rw [h', h]; decide⟩
  · exact ⟨hne _ h', by rw [h', h]; decide, by rw [h', h]; decide⟩
  · exact ⟨hne _ h', by rw [h', h]; decide, by rw [h', h]; decide⟩

end Compatible

/-! ## What is on the wire -/

/-- **One direction of the connection**: its reader has read `recv` packets of
the writer's script and the other packets `got`, its writer has written `sent`
and `accepted`, and the rest is on the wire. -/
def Carries (D : Duet) (w : Role) (recv : ℕ) (got : List Bytes) (c : ConnectionState) (wire : Bytes)
    (accepted : List Bytes) (sent : ℕ) (c' : ConnectionState) : Prop :=
  ∃ ps as, Flow (D.script w) recv ps as sent
    ∧ Pipe (D.keysFrom w) (c.stage (recv / 3)) ps wire (c'.stage (sent / 3))
    ∧ accepted = got ++ as

/-- What a write does to its direction. -/
def Sends (D : Duet) (w : Role) (accepted : List Bytes) (sent : ℕ) (c : ConnectionState)
    (out : Bytes) (accepted' : List Bytes) (sent' : ℕ) (c' : ConnectionState) : Prop :=
  ∀ recv got c₀ wire, D.Carries w recv got c₀ wire accepted sent c →
    D.Carries w recv got c₀ (wire ++ out) accepted' sent' c'

theorem Sends.nothing (w : Role) (accepted : List Bytes) (sent : ℕ) (c : ConnectionState) :
    D.Sends w accepted sent c [] accepted sent c := by
  intro recv got c₀ wire h
  rwa [List.append_nil]

variable (hD : D.Compatible) {w : Role} {recv sent : ℕ} {got accepted : List Bytes}
  {c c' : ConnectionState} {wire : Bytes}
include hD

/-- The next packet of the script is written. -/
theorem Compatible.write_kex (w : Role) (sent : ℕ) (accepted : List Bytes) (c : ConnectionState)
    (hpend : sent % 3 = 2 → c.pendingKeyChange = some (D.keysFrom w (sent / 3 + 1))) (rand : Rand) :
    ∃ out c', c.writePacket rand (D.script w sent) = .ok out c'
      ∧ c'.pendingKeyChange = (if sent % 3 = 2 then none else c.pendingKeyChange)
      ∧ D.Sends w accepted sent c out accepted (sent + 1) c' := by
  obtain ⟨hne, -, hnew⟩ := hD.script_head w sent
  have hmax : (D.script w sent).length + 1
      + c.packetCipher.paddingLength (D.script w sent).length ≤ maxPacket := by
    have hsmall := hD.small w sent
    have hpad := c.packetCipher.paddingLength_lt (D.script w sent).length
    omega
  obtain ⟨out, c', hw, hp, hpipe⟩ := Pipe.write (D.keysFrom w) (sent / 3) hne hmax
    (fun h => hpend (hnew.mp h)) rand
  simp only [hnew] at hp hpipe
  refine ⟨out, c', hw, hp, fun recv got c₀ wire h => ?_⟩
  obtain ⟨ps, as, hflow, hps, hacc⟩ := h
  refine ⟨ps ++ [D.script w sent], as, hflow.concat_kex, ?_, hacc⟩
  have hepoch : (sent + 1) / 3 = if sent % 3 = 2 then sent / 3 + 1 else sent / 3 := by
    split <;> omega
  rw [hepoch]
  exact hpipe hps

omit hD in
/-- Another packet is written. -/
theorem write_plain (w : Role) (accepted : List Bytes) (c : ConnectionState) {p : Bytes}
    (hp : Plain p) (hsmall : p.length + 20 ≤ maxPacket) (h₃ : sent % 3 = 0) (h₀ : 0 < sent)
    (rand : Rand) :
    ∃ out c', c.writePacket rand p = .ok out c' ∧ c'.pendingKeyChange = c.pendingKeyChange
      ∧ D.Sends w accepted sent c out (accepted ++ [p]) sent c' := by
  have hmax : p.length + 1 + c.packetCipher.paddingLength p.length ≤ maxPacket := by
    have hpad := c.packetCipher.paddingLength_lt p.length
    omega
  obtain ⟨out, c', hw, hpend, hpipe⟩ := Pipe.write (D.keysFrom w) (sent / 3) hp.1 hmax
    (fun h => absurd h hp.2.2) rand
  rw [if_neg hp.2.2] at hpend
  simp only [if_neg hp.2.2] at hpipe
  refine ⟨out, c', hw, hpend, fun recv got c₀ wire h => ?_⟩
  obtain ⟨ps, as, hflow, hps, hacc⟩ := h
  refine ⟨ps ++ [p], as ++ [p], hflow.concat_plain hp h₃ h₀, hpipe hps, ?_⟩
  rw [hacc, List.append_assoc]

/-- **What a reader finds**: nothing, the next packet of the script, or between
two key exchanges another packet. -/
theorem Compatible.read_cases (h : D.Carries w recv got c wire accepted sent c')
    (hpend : recv % 3 = 2 → c.pendingKeyChange = some (D.keysFrom w (recv / 3 + 1))) :
    (c.readPacket wire = none ∧ recv = sent ∧ accepted = got)
    ∨ (∃ rest c₁, c.readPacket wire = some (.ok (D.script w recv) rest c₁)
        ∧ c₁.pendingKeyChange = (if recv % 3 = 2 then none else c.pendingKeyChange)
        ∧ D.Carries w (recv + 1) got c₁ rest accepted sent c')
    ∨ ∃ p rest c₁, Plain p ∧ recv % 3 = 0 ∧ 0 < recv
        ∧ c.readPacket wire = some (.ok p rest c₁) ∧ c₁.pendingKeyChange = c.pendingKeyChange
        ∧ D.Carries w recv (got ++ [p]) c₁ rest accepted sent c' := by
  obtain ⟨ps, as, hflow, hpipe, hacc⟩ := h
  cases hflow with
  | nil => exact .inl ⟨hpipe.read_nil, rfl, hacc.trans (List.append_nil _)⟩
  | plain p hp h₃ h₀ hflow =>
    obtain ⟨rest, c₁, hread, hpipe', hpend'⟩ := hpipe.read (fun hh => absurd hh hp.2.2)
    rw [if_neg hp.2.2] at hpipe' hpend'
    refine .inr (.inr ⟨p, rest, c₁, hp, h₃, h₀, hread, hpend', _, _, hflow, hpipe', ?_⟩)
    rw [hacc, List.append_assoc]
    rfl
  | kex hflow =>
    obtain ⟨-, -, hnew⟩ := hD.script_head w recv
    obtain ⟨rest, c₁, hread, hpipe', hpend'⟩ := hpipe.read (fun hh => hpend (hnew.mp hh))
    simp only [hnew] at hpipe' hpend'
    refine .inr (.inl ⟨rest, c₁, hread, hpend', _, _, hflow, ?_, hacc⟩)
    have hepoch : (recv + 1) / 3 = if recv % 3 = 2 then recv / 3 + 1 else recv / 3 := by
      split <;> omega
    rw [hepoch]
    exact hpipe'

end Duet

/-! ## Where a side stands -/

def LoopPc.awaits : LoopPc → Bool
  | .awaitNewKeys => true
  | _ => false

/-- How many packets of key exchanges a loop has read that has been through
`e` of them. -/
def LoopPc.recv (e : ℕ) : LoopPc → ℕ
  | .gotInit _ => 3 * e + 1
  | .entered _ => 3 * e + 1
  | .skipping _ => 3 * e + 1
  | .exchanging _ => 3 * e + 1
  | .awaitReply _ => 3 * e + 1
  | .agreed _ _ => 3 * e + 2
  | .awaitNewKeys => 3 * e + 2
  | _ => 3 * e

/-- How many were written, if a key exchange is under way. -/
def LoopPc.sent (e : ℕ) : LoopPc → ℕ
  | .awaitReply _ => 3 * e + 2
  | .agreed _ _ => 3 * e + 2
  | .awaitNewKeys => 3 * e + 3
  | _ => 3 * e + 1

/-- What was read and not handed on. -/
def LoopPc.held : LoopPc → List Bytes
  | .deliver p => [p]
  | _ => []

def LoopPc.isReading : LoopPc → Bool
  | .reading => true
  | _ => false

namespace Party

/-- Everything that was sent to it was taken, and its loop waits for more. -/
def drained (s : Party) (inp : Bytes) : Bool :=
  s.loop.isReading && (s.get inp).isNone && s.incoming.isEmpty

/-- The key exchanges it has been through. -/
def epoch (s : Party) : ℕ := if s.sentInit.isSome then s.kexes - 1 else s.kexes

/-- How many packets of key exchanges it has read. -/
def recv (s : Party) : ℕ := s.loop.recv s.epoch

/-- How many it has written. -/
def sent (s : Party) : ℕ := if s.sentInit.isSome then s.loop.sent s.epoch else 3 * s.epoch

/-- A `KexInit` was sent, now or before. -/
def setInit (s : Party) (w : ConnectionState) (wrote : List Bytes) (m : KexInit) (n : ℕ) : Party :=
  { s with writer := w, wrote := wrote, sentInit := some m, kexes := n }

end Party

/-- The packets of a list that matter to whoever reads them. -/
def useful (l : List Bytes) : List Bytes :=
  l.filter (fun p => decide (p.head? ≠ some msgNewKeys ∧ p.head? ≠ some msgIgnore
    ∧ p.head? ≠ some msgDebug))

theorem useful_append (l l' : List Bytes) : useful (l ++ l') = useful l ++ useful l' :=
  List.filter_append l l'

/-- **A packet that may be given to `writePacket`.** -/
def Sendable (p : Bytes) : Prop := p ≠ [] ∧ p.length + 20 ≤ maxPacket

instance (p : Bytes) : Decidable (Sendable p) := inferInstanceAs (Decidable (_ ∧ _))

namespace Duet

/-- What the loop holds, by where it stands. -/
def LoopOk (D : Duet) (r : Role) (epoch : ℕ) (sentInit : Bool) : LoopPc → Prop
  | .turn => True
  | .reading => True
  | .gotInit packet => packet = D.script r.peer (3 * epoch)
  | .entered packet => packet = D.script r.peer (3 * epoch) ∧ sentInit = true
  | .skipping _ => False
  | .exchanging n => n = D.negotiated r epoch ∧ sentInit = true
  | .awaitReply n => n = D.negotiated r epoch ∧ sentInit = true ∧ r = .client
  | .agreed algs res => algs = D.algs ∧ res = (D.outcome epoch).1 ∧ sentInit = true
  | .awaitNewKeys => sentInit = true
  | .deliver p => p = [msgNewKeys] ∨ Plain p
  | .ended _ => False
  | .crashed => False

theorem LoopOk.sent {D : Duet} {r : Role} {epoch : ℕ} {b : Bool} {pc : LoopPc}
    (h : D.LoopOk r epoch b pc) : D.LoopOk r epoch true pc := by
  cases pc with
  | entered packet => exact ⟨h.1, rfl⟩
  | exchanging n => exact ⟨h.1, rfl⟩
  | awaitReply n => exact ⟨h.1, rfl, h.2.2⟩
  | agreed algs res => exact ⟨h.1, h.2.1, rfl⟩
  | awaitNewKeys => rfl
  | _ => exact h

/-- **What a side keeps to** in its key exchanges. -/
structure Kex (D : Duet) (r : Role) (s : Party) : Prop where
  init : ∀ m, s.sentInit = some m → m = (D.peer r).offer s.epoch ∧ s.kexes = s.epoch + 1
  loop : D.LoopOk r s.epoch s.sentInit.isSome s.loop
  writer : s.writer.pendingKeyChange = none
  reader : s.reader.pendingKeyChange
    = if s.loop.awaits then some (D.keysFrom r.peer (s.epoch + 1)) else none
  sessionID : s.sessionID = if 0 < s.epoch ∨ s.loop.awaits then some D.sessionID else none
  wrote : Flow (D.script r) 0 s.wrote s.accepted s.sent

end Duet

/-- How often a reader of these packets is told that keys have changed. -/
def newKeysIn (l : List Bytes) : ℕ := l.countP (fun p => decide (p.head? = some msgNewKeys))

theorem newKeysIn_append (l l' : List Bytes) : newKeysIn (l ++ l') = newKeysIn l + newKeysIn l' :=
  List.countP_append

/-- How often it was told at least, to be where it is. -/
def MainPc.told : MainPc → ℕ
  | login => 1
  | ready => 1
  | failed => 2
  | _ => 0

/-- **What a side keeps to** in what it hands on, and in its handshake. -/
structure Handed (epoch : ℕ) (main : MainPc) (replying : Option Bytes)
    (waiting received incoming held got : List Bytes) : Prop where
  waiting : ∀ p ∈ waiting, Sendable p ∧ main = .ready
  replying : ∀ p, replying = some p → Sendable p ∧ 0 < epoch
  refused : ∀ err, main ≠ .refused err
  told : main.told ≤ newKeysIn received
  opening : main.told = 0 → received = [] ∧ (epoch = 0 → incoming ++ held = [])
    ∧ (0 < epoch → (incoming ++ held).head? = some [msgNewKeys])
  newKeys : newKeysIn (received ++ (incoming ++ held)) = epoch
  record : useful (received ++ (incoming ++ held)) = useful got

/-- **The invariant of one side.** -/
structure Duet.Local (D : Duet) (r : Role) (s : Party) : Prop where
  kex : D.Kex r s
  handed : Handed s.epoch s.main s.replying s.waiting s.received s.incoming s.loop.held s.got

namespace Duet

variable {D : Duet} {r : Role} {s : Party}

/-- Where the loop stands changes, and nothing that was said on the wire. -/
theorem Kex.setLoop (h : D.Kex r s) {pc : LoopPc} (hsent : (s.setLoop pc).sent = s.sent)
    (hawaits : pc.awaits = s.loop.awaits) (hloop : D.LoopOk r s.epoch s.sentInit.isSome pc) :
    D.Kex r (s.setLoop pc) where
  init := h.init
  loop := hloop
  writer := h.writer
  reader := by
    rw [Party.setLoop, hawaits]
    exact h.reader
  sessionID := by
    rw [Party.setLoop, hawaits]
    exact h.sessionID
  wrote := by
    rw [hsent]
    exact h.wrote

/-- Before a `KexInit` is sent. -/
theorem Kex.idle (h : D.Kex r s) (hnone : s.sentInit = none) :
    s.epoch = s.kexes ∧ s.sent = 3 * s.kexes ∧ s.loop.awaits = false
      ∧ ∀ m, (s.initiated m).sent = 3 * s.kexes + 1 := by
  obtain ⟨reader, writer, sid, init, rk, wk, loop, main, inc, reply, wait, kexes, wrote, acc, got,
    rec⟩ := s
  obtain rfl : init = none := hnone
  have hloop := h.loop
  refine ⟨rfl, rfl, ?_, fun m => ?_⟩
  · cases loop with
    | awaitNewKeys => cases hloop
    | _ => rfl
  · cases loop with
    | awaitNewKeys => cases hloop
    | awaitReply n => cases hloop.2.1
    | agreed a res => cases hloop.2.2
    | _ => rfl

/-- **`sendKexInit` succeeds.** A message is sent if none is under way, and the
place in the order of packets is kept. -/
theorem Kex.sendKexInit (hD : D.Compatible) (h : D.Kex r s) (rand : Rand) :
    ∃ out w wr m n, s.sendKexInit (D.peer r) rand = .ok out (s.setInit w wr m n)
      ∧ D.Kex r (s.setInit w wr m n) ∧ (s.setInit w wr m n).epoch = s.epoch
      ∧ D.Sends r s.accepted s.sent s.writer out s.accepted (s.setInit w wr m n).sent w := by
  cases hinit : s.sentInit with
  | some m =>
    have hs : s.setInit s.writer s.wrote m s.kexes = s := by
      rw [Party.setInit, ← hinit]
    refine ⟨[], s.writer, s.wrote, m, s.kexes, ?_, ?_, ?_, ?_⟩
    · rw [hs, Party.sendKexInit, if_pos (by rw [hinit]; rfl)]
    · rw [hs]
      exact h
    · rw [hs]
    · rw [hs]
      exact Sends.nothing r s.accepted s.sent s.writer
  | none =>
    obtain ⟨hepoch, hsent, hawaits, hsent'⟩ := h.idle hinit
    obtain ⟨out, w, hw, hpend, hsends⟩ := hD.write_kex r s.sent s.accepted s.writer
      (fun h₂ => by omega) rand
    rw [if_neg (by omega)] at hpend
    have hscript : D.script r s.sent = ((D.peer r).offer s.kexes).marshal := by
      rw [hsent, script_zero]
    have hwrote := h.wrote.concat_kex
    rw [hscript] at hw hwrote
    rw [hsent] at hwrote hsends
    refine ⟨out, w, s.wrote ++ [((D.peer r).offer s.kexes).marshal], (D.peer r).offer s.kexes,
      s.kexes + 1, ?_, ?_, ?_, ?_⟩
    · rw [Party.sendKexInit, if_neg (by rw [hinit]; nofun), Party.put, hw]
      rfl
    · have hsent₁ := hsent' ((D.peer r).offer s.kexes)
      have hloop := h.loop
      have hreader := h.reader
      have hid := h.sessionID
      rw [hepoch] at hloop
      rw [hepoch] at hreader hid
      refine ⟨fun m hm => ?_, hloop.sent, hpend.trans h.writer, hreader, hid, hsent₁ ▸ hwrote⟩
      obtain rfl := Option.some.inj hm
      exact ⟨rfl, rfl⟩
    · rw [hepoch]
      rfl
    · intro recv got c₀ wire hcarries
      rw [hsent] at hcarries
      have hsent₁ := hsent' ((D.peer r).offer s.kexes)
      exact hsent₁ ▸ hsends recv got c₀ wire hcarries

end Duet

end Ssh
