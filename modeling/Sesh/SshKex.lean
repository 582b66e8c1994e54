import Mathlib.Data.Nat.GCD.Basic
import Sesh.SshTransport

/-!
# The key exchange

Two sides that have exchanged their `KexInit` messages agree on algorithms
(`ssh/common.go`), run one of the key exchange algorithms (`ssh/kex.go`) and
derive the keys of both directions from what came of it (`ssh/transport.go`).
The three key exchange algorithms – over the integers modulo a prime, over an
elliptic curve, over Curve25519 – have one shape: the client sends a public
value, the server answers with its host key, a public value of its own and a
signature, and both hash everything that was said. `Ssh.Exchange` is that
shape, and the three are values of it.

There are two things to know of a key exchange. Where nobody interferes, both
sides come to the same result (`Exchange.Honest`), which for the integers
modulo a prime is a fact about powers. Where somebody may have sent either
side anything, what the two sides hold is tied to the hash: it is taken of
strings that can be told apart again (`Exchange.transcript_inj`), so that two
sides with the same hash have seen the same versions, the same offers, the
same host key and the same public values, and then chose the same algorithms.
-/

namespace Ssh

open Symmetric

/-- What a computation that may fail has come from. -/
theorem bind_eq_ok {α β : Type} {x : Except GoString α} {f : α → Except GoString β} {b : β}
    (h : x >>= f = .ok b) : ∃ a, x = .ok a ∧ f a = .ok b := by
  cases x with
  | error err => cases h
  | ok a => exact ⟨a, rfl, h⟩

@[simp] theorem ok_bind {α β : Type} (a : α) (f : α → Except GoString β) :
    (Except.ok a : Except GoString α) >>= f = f a := rfl

/-! ## Agreeing on algorithms -/

/-- **`kexInitMsg`**, field by field. -/
structure KexInit where
  cookie : { b : Bytes // b.length = 16 }
  kexAlgos : List Bytes
  serverHostKeyAlgos : List Bytes
  ciphersClientServer : List Bytes
  ciphersServerClient : List Bytes
  macsClientServer : List Bytes
  macsServerClient : List Bytes
  compressionClientServer : List Bytes
  compressionServerClient : List Bytes
  languagesClientServer : List Bytes
  languagesServerClient : List Bytes
  firstKexFollows : Bool
  reserved : UInt32

namespace KexInit

/-- The message as the codec has it. -/
def val (m : KexInit) : kexInitMsg.Val :=
  (m.cookie, m.kexAlgos, m.serverHostKeyAlgos, m.ciphersClientServer, m.ciphersServerClient,
    m.macsClientServer, m.macsServerClient, m.compressionClientServer, m.compressionServerClient,
    m.languagesClientServer, m.languagesServerClient, m.firstKexFollows, m.reserved, ())

/-- The fields of a message. -/
def ofVal : kexInitMsg.Val → KexInit
  | (c, k, h, ccs, csc, mcs, msc, zcs, zsc, lcs, lsc, f, r, _) =>
    ⟨c, k, h, ccs, csc, mcs, msc, zcs, zsc, lcs, lsc, f, r⟩

/-- `Marshal`. -/
def marshal (m : KexInit) : Bytes := Ssh.marshal kexInitMsg m.val

/-- `Unmarshal`. -/
def unmarshal (b : Bytes) : Except GoString KexInit := (Ssh.unmarshal kexInitMsg b).map ofVal

end KexInit

/-- The offers of a list, as `fmt` prints a slice of strings. -/
def showNames (l : List Bytes) : GoString :=
  '[' :: [' '].intercalate (l.map (fun b => b.map (fun x => Char.ofNat x.toNat))) ++ [']']

/-- `findCommon`: the first name of the client's that is one of the server's. -/
def findCommon (what : String) (client server : List Bytes) : Except GoString Bytes :=
  match client.find? (fun c => decide (c ∈ server)) with
  | some c => .ok c
  | none => .error ("ssh: no common algorithm for ".toList ++ what.toList
      ++ "; client offered: ".toList ++ showNames client ++ ", server offered: ".toList
      ++ showNames server)

structure DirectionAlgorithms where
  cipher : Bytes
  mac : Bytes
  compression : Bytes
  deriving DecidableEq

structure Algorithms where
  kex : Bytes
  hostKey : Bytes
  w : DirectionAlgorithms
  r : DirectionAlgorithms
  deriving DecidableEq

/-- **`findAgreedAlgorithms`.** What the client writes with is `w`, on both
sides. -/
def findAgreedAlgorithms (client server : KexInit) : Except GoString Algorithms := do
  let kex ← findCommon "key exchange" client.kexAlgos server.kexAlgos
  let hostKey ← findCommon "host key" client.serverHostKeyAlgos server.serverHostKeyAlgos
  let wCipher ← findCommon "client to server cipher"
    client.ciphersClientServer server.ciphersClientServer
  let rCipher ← findCommon "server to client cipher"
    client.ciphersServerClient server.ciphersServerClient
  let wMac ← findCommon "client to server MAC" client.macsClientServer server.macsClientServer
  let rMac ← findCommon "server to client MAC" client.macsServerClient server.macsServerClient
  let wCompression ← findCommon "client to server compression"
    client.compressionClientServer server.compressionClientServer
  let rCompression ← findCommon "server to client compression"
    client.compressionServerClient server.compressionServerClient
  return ⟨kex, hostKey, ⟨wCipher, wMac, wCompression⟩, ⟨rCipher, rMac, rCompression⟩⟩

/-- **What is common** is the first name of the client's that the server has
too. -/
theorem findCommon_eq_ok_iff {what : String} {client server : List Bytes} {c : Bytes} :
    findCommon what client server = .ok c ↔
      ∃ l₁ l₂, client = l₁ ++ c :: l₂ ∧ c ∈ server ∧ ∀ b ∈ l₁, b ∉ server := by
  have hfind : findCommon what client server = .ok c ↔
      client.find? (fun c => decide (c ∈ server)) = some c := by
    rw [findCommon]
    split
    · rename_i d hd
      rw [hd]
      exact ⟨fun h => congrArg some (Except.ok.inj h), fun h => congrArg _ (Option.some.inj h)⟩
    · rename_i hnone
      rw [hnone]
      exact ⟨nofun, nofun⟩
  rw [hfind, List.find?_eq_some_iff_append]
  simp only [decide_eq_true_eq, Bool.not_eq_true', decide_eq_false_iff_not]
  constructor
  · rintro ⟨hc, l₁, l₂, h, hl⟩
    exact ⟨l₁, l₂, h, hc, hl⟩
  · rintro ⟨l₁, l₂, h, hc, hl⟩
    exact ⟨hc, l₁, l₂, h, hl⟩

/-- The name of the list does not matter where there is something common. -/
theorem findCommon_what {what what' : String} {client server : List Bytes} {c : Bytes}
    (h : findCommon what client server = .ok c) : findCommon what' client server = .ok c :=
  findCommon_eq_ok_iff.mpr (findCommon_eq_ok_iff.mp h)

/-- What the algorithms come from. -/
theorem findAgreedAlgorithms_eq_ok_iff {client server : KexInit} {algs : Algorithms} :
    findAgreedAlgorithms client server = .ok algs ↔
      findCommon "key exchange" client.kexAlgos server.kexAlgos = .ok algs.kex
      ∧ findCommon "host key" client.serverHostKeyAlgos server.serverHostKeyAlgos = .ok algs.hostKey
      ∧ findCommon "client to server cipher" client.ciphersClientServer
          server.ciphersClientServer = .ok algs.w.cipher
      ∧ findCommon "server to client cipher" client.ciphersServerClient
          server.ciphersServerClient = .ok algs.r.cipher
      ∧ findCommon "client to server MAC" client.macsClientServer
          server.macsClientServer = .ok algs.w.mac
      ∧ findCommon "server to client MAC" client.macsServerClient
          server.macsServerClient = .ok algs.r.mac
      ∧ findCommon "client to server compression" client.compressionClientServer
          server.compressionClientServer = .ok algs.w.compression
      ∧ findCommon "server to client compression" client.compressionServerClient
          server.compressionServerClient = .ok algs.r.compression := by
  rw [findAgreedAlgorithms]
  constructor
  · intro h
    obtain ⟨kex, h₁, h⟩ := bind_eq_ok h
    obtain ⟨hostKey, h₂, h⟩ := bind_eq_ok h
    obtain ⟨wc, h₃, h⟩ := bind_eq_ok h
    obtain ⟨rc, h₄, h⟩ := bind_eq_ok h
    obtain ⟨wm, h₅, h⟩ := bind_eq_ok h
    obtain ⟨rm, h₆, h⟩ := bind_eq_ok h
    obtain ⟨wz, h₇, h⟩ := bind_eq_ok h
    obtain ⟨rz, h₈, h⟩ := bind_eq_ok h
    obtain rfl := Except.ok.inj h
    exact ⟨h₁, h₂, h₃, h₄, h₅, h₆, h₇, h₈⟩
  · rintro ⟨h₁, h₂, h₃, h₄, h₅, h₆, h₇, h₈⟩
    rw [h₁, h₂, h₃, h₄, h₅, h₆, h₇, h₈]
    rfl

/-! ## The result of a key exchange -/

/-- `kexResult`. -/
structure KexResult where
  H : Bytes
  K : Bytes
  hostKey : Bytes
  signature : Bytes
  hash : Hash

/-- `handshakeMagics`. -/
structure HandshakeMagics where
  clientVersion : Bytes
  serverVersion : Bytes
  clientKexInit : Bytes
  serverKexInit : Bytes

/-- `writeString`. -/
def writeString (s : Bytes) : Bytes := putUint32 s.length ++ s

/-- `handshakeMagics.write`. -/
def HandshakeMagics.write (m : HandshakeMagics) : Bytes :=
  writeString m.clientVersion ++ (writeString m.serverVersion
    ++ (writeString m.clientKexInit ++ writeString m.serverKexInit))

/-- `Signature`. -/
structure Signature where
  format : Bytes
  blob : Bytes

def signatureType : StructType :=
  ⟨"Signature".toList, 0, [field "Format" .string, field "Blob" .bytes], by decide⟩

/-- A host key with its private part. -/
structure HostSigner where
  type : Bytes
  /-- `PublicKey().Marshal()`. -/
  publicKey : Bytes
  sign : Bytes → Except GoString Signature

/-- `signAndMarshal`. -/
def signAndMarshal (k : HostSigner) (data : Bytes) : Except GoString Bytes :=
  (k.sign data).map (fun sig => marshal signatureType (sig.format, sig.blob, ()))

/-- `parseSignatureBody`. -/
def parseSignatureBody (b : Bytes) : Option (Signature × Bytes) :=
  match parseString b with
  | none => none
  | some (format, rest) =>
    match parseString rest with
    | none => none
    | some (blob, rest) => some (⟨format, blob⟩, rest)

/-- A host key as the client sees it: `Verify` is `none` where it has nothing
to complain about. -/
structure PublicKey where
  verify : (data : Bytes) → Signature → Option GoString

/-- `verifyHostKeySignature`. -/
def verifyHostKeySignature (hostKey : PublicKey) (result : KexResult) : Option GoString :=
  match parseSignatureBody result.signature with
  | some (sig, []) => hostKey.verify result.H sig
  | _ => some "ssh: signature parse error".toList

/-! ## Key exchange algorithms -/

/-- What a source of random bytes gives. -/
abbrev Rand := ℕ → UInt8

/-- **A key exchange algorithm**: what the three implementations of
`kexAlgorithm` differ in. -/
structure Exchange where
  Private : Type
  Public : Type
  generate : Rand → Private
  publicValue : Private → Public
  marshalInit : Public → Bytes
  unmarshalInit : Bytes → Except GoString Public
  marshalReply : (hostKey : Bytes) → Public → (signature : Bytes) → Bytes
  unmarshalReply : Bytes → Except GoString (Bytes × Public × Bytes)
  /-- A public value as it is hashed: `writeInt` and `writeString` write it
  behind its length. -/
  encode : Public → Bytes
  /-- The shared secret, from my private value and their public one. -/
  shared : Private → Public → Except GoString ℤ
  hash : Hash

namespace Exchange

variable (k : Exchange)

/-- **What is hashed.** -/
def transcript (magics : HandshakeMagics) (hostKey : Bytes) (X Y : k.Public) (K : ℤ) : Bytes :=
  magics.write ++ (writeString hostKey ++ (writeString (k.encode X)
    ++ (writeString (k.encode Y) ++ marshalInt K)))

/-- The first half of `Client`: what is written. -/
def clientInit (rand : Rand) : Bytes := k.marshalInit (k.publicValue (k.generate rand))

/-- The second half of `Client`, with the packet that was read. -/
def client (rand : Rand) (magics : HandshakeMagics) (packet : Bytes) :
    Except GoString KexResult := do
  let x := k.generate rand
  let (hostKey, Y, signature) ← k.unmarshalReply packet
  let K ← k.shared x Y
  return ⟨k.hash.sum (k.transcript magics hostKey (k.publicValue x) Y K), marshalInt K, hostKey,
    signature, k.hash⟩

/-- `Server`, with the packet that was read, and what it writes. -/
def server (rand : Rand) (magics : HandshakeMagics) (priv : HostSigner) (packet : Bytes) :
    Except GoString (KexResult × Bytes) := do
  let X ← k.unmarshalInit packet
  let y := k.generate rand
  let K ← k.shared y X
  let H := k.hash.sum (k.transcript magics priv.publicKey X (k.publicValue y) K)
  let signature ← signAndMarshal priv H
  return (⟨H, marshalInt K, priv.publicKey, signature, k.hash⟩,
    k.marshalReply priv.publicKey (k.publicValue y) signature)

/-- What the client hashes. -/
def clientTranscript (rand : Rand) (magics : HandshakeMagics) (packet : Bytes) :
    Except GoString Bytes := do
  let x := k.generate rand
  let (hostKey, Y, _) ← k.unmarshalReply packet
  let K ← k.shared x Y
  return k.transcript magics hostKey (k.publicValue x) Y K

/-- What the server hashes. -/
def serverTranscript (rand : Rand) (magics : HandshakeMagics) (priv : HostSigner)
    (packet : Bytes) : Except GoString Bytes := do
  let X ← k.unmarshalInit packet
  let y := k.generate rand
  let K ← k.shared y X
  return k.transcript magics priv.publicKey X (k.publicValue y) K

/-- **A key exchange that works** where nobody interferes. -/
structure Honest : Prop where
  agree : ∀ r r', ∃ K, k.shared (k.generate r) (k.publicValue (k.generate r')) = .ok K
    ∧ k.shared (k.generate r') (k.publicValue (k.generate r)) = .ok K
  init : ∀ r, (k.clientInit r).length < 2 ^ 32 →
    k.unmarshalInit (k.clientInit r) = .ok (k.publicValue (k.generate r))
  reply : ∀ r hostKey sig,
    (k.marshalReply hostKey (k.publicValue (k.generate r)) sig).length < 2 ^ 32 →
    k.unmarshalReply (k.marshalReply hostKey (k.publicValue (k.generate r)) sig)
      = .ok (hostKey, k.publicValue (k.generate r), sig)
  initTag : ∀ X, (k.marshalInit X).head? = some 30
  replyTag : ∀ hostKey Y sig, (k.marshalReply hostKey Y sig).head? = some 31

variable {k}

/-- **Both sides come to the same result** where nobody interferes. -/
theorem Honest.run (h : k.Honest) (x y : Rand) (magics : HandshakeMagics) {priv : HostSigner}
    (hsign : ∀ data, ∃ sig, priv.sign data = .ok sig) (hx : (k.clientInit x).length < 2 ^ 32) :
    ∃ r reply t sig, k.server y magics priv (k.clientInit x) = .ok (r, reply)
      ∧ k.serverTranscript y magics priv (k.clientInit x) = .ok t
      ∧ r.hostKey = priv.publicKey ∧ priv.sign r.H = .ok sig
      ∧ r.signature = marshal signatureType (sig.format, sig.blob, ())
      ∧ reply = k.marshalReply priv.publicKey (k.publicValue (k.generate y)) r.signature
      ∧ (reply.length < 2 ^ 32 →
        k.client x magics reply = .ok r ∧ k.clientTranscript x magics reply = .ok t) := by
  obtain ⟨K, hxy, hyx⟩ := h.agree x y
  obtain ⟨sig, hsig⟩ := hsign (k.hash.sum (k.transcript magics priv.publicKey
    (k.publicValue (k.generate x)) (k.publicValue (k.generate y)) K))
  refine ⟨⟨_, marshalInt K, priv.publicKey, marshal signatureType (sig.format, sig.blob, ()),
    k.hash⟩, _, k.transcript magics priv.publicKey (k.publicValue (k.generate x))
      (k.publicValue (k.generate y)) K, sig, ?_, ?_, rfl, hsig, rfl, rfl, fun hlen => ⟨?_, ?_⟩⟩
  · simp only [server, h.init x hx, ok_bind, hyx, signAndMarshal, hsig]
    rfl
  · simp only [serverTranscript, h.init x hx, ok_bind, hyx]
    rfl
  · simp only [client, h.reply y _ _ hlen, ok_bind, hxy]
    rfl
  · simp only [clientTranscript, h.reply y _ _ hlen, ok_bind, hxy]
    rfl

/-- A string and what is behind it can be told apart. -/
theorem writeString_append_inj {a b r r' : Bytes} (h : writeString a ++ r = writeString b ++ r')
    (hlen : (writeString a ++ r).length < 2 ^ 32) : a = b ∧ r = r' := by
  have hshort : ∀ {c s : Bytes}, (writeString c ++ s).length < 2 ^ 32 → Prefixed (writeString c) c := by
    intro c s hs
    rw [List.length_append, writeString, List.length_append] at hs
    exact ⟨by omega, rfl⟩
  have hlen' := hlen
  rw [h] at hlen'
  have ha := parseString_of_prefixed (hshort hlen) hlen
  have hb := parseString_of_prefixed (hshort hlen') hlen'
  rw [h, hb] at ha
  obtain ⟨hab, hr⟩ := Prod.mk.inj (Option.some.inj ha)
  exact ⟨hab.symm, hr.symm⟩

/-- Strings one after the other. -/
def writeStrings (l : List Bytes) : Bytes := (l.map writeString).flatten

/-- So can any number of them. -/
theorem writeStrings_inj {l l' : List Bytes} (h : writeStrings l = writeStrings l')
    (hl : l.length = l'.length) (hlen : (writeStrings l).length < 2 ^ 32) : l = l' := by
  induction l generalizing l' with
  | nil => exact (List.length_eq_zero_iff.mp hl.symm).symm
  | cons s l ih =>
    match l', hl with
    | s' :: l', hl =>
      obtain ⟨rfl, hrest⟩ := writeString_append_inj h hlen
      have htail : (writeStrings l).length < 2 ^ 32 := by
        have : (writeString s ++ writeStrings l).length < 2 ^ 32 := hlen
        rw [List.length_append] at this
        omega
      rw [ih hrest (Nat.succ.inj hl) htail]

/-- **The strings that are hashed can be told apart**, whichever algorithms
they belong to. -/
theorem transcript_inj {k' : Exchange} {m m' : HandshakeMagics} {hostKey hostKey' : Bytes}
    {X Y : k.Public} {X' Y' : k'.Public} {K K' : ℤ}
    (h : k.transcript m hostKey X Y K = k'.transcript m' hostKey' X' Y' K')
    (hlen : (k.transcript m hostKey X Y K).length < 2 ^ 32) :
    m = m' ∧ hostKey = hostKey' ∧ k.encode X = k'.encode X' ∧ k.encode Y = k'.encode Y'
      ∧ K = K' := by
  have hstrings : ∀ (k : Exchange) (m : HandshakeMagics) (hostKey : Bytes) (X Y : k.Public) (K : ℤ),
      k.transcript m hostKey X Y K
        = writeStrings [m.clientVersion, m.serverVersion, m.clientKexInit, m.serverKexInit, hostKey,
            k.encode X, k.encode Y, intBytes K] := by
    intro k m hostKey X Y K
    simp only [transcript, HandshakeMagics.write, writeStrings, List.map_cons, List.map_nil,
      List.flatten_cons, List.flatten_nil, List.append_assoc, List.append_nil]
    rfl
  rw [hstrings, hstrings] at h
  rw [hstrings] at hlen
  have hl := writeStrings_inj h rfl hlen
  simp only [List.cons.injEq, and_true] at hl
  obtain ⟨hcv, hsv, hci, hsi, hkey, hX, hY, hint⟩ := hl
  obtain ⟨cv, sv, ci, si⟩ := m
  refine ⟨?_, hkey, hX, hY, ?_⟩
  · rw [HandshakeMagics.mk.injEq]
    exact ⟨hcv, hsv, hci, hsi⟩
  · rw [← intOfBytes_intBytes K, hint, intOfBytes_intBytes]

/-- What the client has hashed. -/
theorem client_eq_ok {x : Rand} {m : HandshakeMagics} {packet : Bytes} {r : KexResult}
    (h : k.client x m packet = .ok r) :
    ∃ Y K, k.clientTranscript x m packet
        = .ok (k.transcript m r.hostKey (k.publicValue (k.generate x)) Y K)
      ∧ r.H = k.hash.sum (k.transcript m r.hostKey (k.publicValue (k.generate x)) Y K)
      ∧ r.K = marshalInt K ∧ r.hash = k.hash := by
  obtain ⟨⟨hostKey, Y, sig⟩, hreply, h⟩ := bind_eq_ok h
  obtain ⟨K, hK, h⟩ := bind_eq_ok h
  obtain rfl := Except.ok.inj h
  refine ⟨Y, K, ?_, rfl, rfl, rfl⟩
  rw [clientTranscript, hreply]
  show (k.shared (k.generate x) Y >>= _) = _
  rw [hK]
  rfl

/-- What the server has hashed. -/
theorem server_eq_ok {y : Rand} {m : HandshakeMagics} {priv : HostSigner} {packet reply : Bytes}
    {r : KexResult} (h : k.server y m priv packet = .ok (r, reply)) :
    ∃ X K, k.serverTranscript y m priv packet
        = .ok (k.transcript m r.hostKey X (k.publicValue (k.generate y)) K)
      ∧ r.H = k.hash.sum (k.transcript m r.hostKey X (k.publicValue (k.generate y)) K)
      ∧ r.K = marshalInt K ∧ r.hash = k.hash := by
  obtain ⟨X, hinit, h⟩ := bind_eq_ok h
  obtain ⟨K, hK, h⟩ := bind_eq_ok h
  obtain ⟨sig, -, h⟩ := bind_eq_ok h
  obtain ⟨rfl, -⟩ := Prod.mk.inj (Except.ok.inj h)
  refine ⟨X, K, ?_, rfl, rfl, rfl⟩
  rw [serverTranscript, hinit]
  show (k.shared (k.generate y) X >>= _) = _
  rw [hK]
  rfl

end Exchange

/-! ## Diffie-Hellman -/

/-- **`dhGroup`**: a generator prime to its modulus. -/
structure DhGroup where
  g : ℕ
  p : ℕ
  one_lt : 1 < p
  coprime : Nat.Coprime g p

namespace DhGroup

variable (group : DhGroup)

/-- `diffieHellman`. -/
def diffieHellman (theirPublic : ℤ) (myPrivate : ℕ) : Except GoString ℤ :=
  if theirPublic ≤ 0 ∨ (group.p : ℤ) ≤ theirPublic then
    .error "ssh: DH parameter out of bounds".toList
  else .ok ((theirPublic.toNat ^ myPrivate % group.p : ℕ) : ℤ)

/-- The algorithm; `randInt` is `rand.Int`. -/
def exchange (randInt : Rand → ℕ → ℕ) (sha1 : Hash) : Exchange where
  Private := ℕ
  Public := ℤ
  generate r := randInt r group.p
  publicValue x := ((group.g ^ x % group.p : ℕ) : ℤ)
  marshalInit X := marshal kexDHInitMsg (X, ())
  unmarshalInit b := (unmarshal kexDHInitMsg b).map (fun m => m.1)
  marshalReply hostKey Y sig := marshal kexDHReplyMsg (hostKey, Y, sig, ())
  unmarshalReply b := (unmarshal kexDHReplyMsg b).map (fun m => (m.1, m.2.1, m.2.2.1))
  encode := intBytes
  shared x Y := group.diffieHellman Y x
  hash := sha1

/-- A power of the generator is in bounds. -/
theorem pow_bounds (x : ℕ) : 0 < group.g ^ x % group.p ∧ group.g ^ x % group.p < group.p := by
  refine ⟨Nat.pos_of_ne_zero fun h => ?_, Nat.mod_lt _ (Nat.lt_of_succ_lt group.one_lt)⟩
  have hdvd : group.p ∣ group.g ^ x := Nat.dvd_of_mod_eq_zero h
  have hone : group.p = 1 := (Nat.Coprime.pow_left x group.coprime).symm.eq_one_of_dvd hdvd
  exact absurd hone (Nat.ne_of_gt group.one_lt)

/-- What comes of a power of the generator. -/
theorem diffieHellman_pow (x y : ℕ) :
    group.diffieHellman ((group.g ^ y % group.p : ℕ) : ℤ) x
      = .ok ((group.g ^ (x * y) % group.p : ℕ) : ℤ) := by
  obtain ⟨hpos, hlt⟩ := group.pow_bounds y
  rw [diffieHellman, if_neg (by omega), Int.toNat_natCast, ← Nat.pow_mod, ← pow_mul,
    Nat.mul_comm y x]

/-- **Diffie-Hellman works.** -/
theorem honest (randInt : Rand → ℕ → ℕ) (sha1 : Hash) :
    (group.exchange randInt sha1).Honest where
  agree r r' := by
    refine ⟨((group.g ^ (randInt r group.p * randInt r' group.p) % group.p : ℕ) : ℤ),
      group.diffieHellman_pow _ _, ?_⟩
    rw [Nat.mul_comm]
    exact group.diffieHellman_pow _ _
  init r hlen := congrArg (Except.map _)
    (unmarshal_marshal (t := kexDHInitMsg) (fit_of_no_names (by decide) _) (by nofun) hlen)
  reply r hostKey sig hlen := congrArg (Except.map _)
    (unmarshal_marshal (t := kexDHReplyMsg) (fit_of_no_names (by decide) _) (by nofun) hlen)
  initTag _ := rfl
  replyTag _ _ _ := rfl

/-- The group of `diffie-hellman-group1-sha1`. -/
def group1 : DhGroup where
  g := 2
  p := 0xFFFFFFFFFFFFFFFFC90FDAA22168C234C4C6628B80DC1CD129024E088A67CC74020BBEA63B139B22514A08798E3404DDEF9519B3CD3A431B302B0A6DF25F14374FE1356D6D51C245E485B576625E7EC6F44C42E9A637ED6B0BFF5CB6F406B7EDEE386BFB5A899FA5AE9F24117C4B1FE649286651ECE65381FFFFFFFFFFFFFFFF
  one_lt := by decide
  coprime := by decide

/-- The group of `diffie-hellman-group14-sha1`. -/
def group14 : DhGroup where
  g := 2
  p := 0xFFFFFFFFFFFFFFFFC90FDAA22168C234C4C6628B80DC1CD129024E088A67CC74020BBEA63B139B22514A08798E3404DDEF9519B3CD3A431B302B0A6DF25F14374FE1356D6D51C245E485B576625E7EC6F44C42E9A637ED6B0BFF5CB6F406B7EDEE386BFB5A899FA5AE9F24117C4B1FE649286651ECE45B3DC2007CB8A163BF0598DA48361C55D39A69163FA8FD24CF5F83655D23DCA3AD961C62F356208552BB9ED529077096966D670C354E4ABC9804F1746C08CA18217C32905E462E36CE3BE39E772C180E86039B2783A2EC07A28FB5C55DF06F4C52C9DE2BCBF6955817183995497CEA956AE515D2261898FA051015728E5A8AACAA68FFFFFFFFFFFFFFFF
  one_lt := by decide
  coprime := by decide

end DhGroup

/-! ## Elliptic curves -/

/-- The messages of the two algorithms over elliptic curves. -/
def ecExchange {Private : Type} (generate : Rand → Private) (publicValue : Private → Bytes)
    (shared : Private → Bytes → Except GoString ℤ) (hash : Hash) : Exchange where
  Private := Private
  Public := Bytes
  generate := generate
  publicValue := publicValue
  marshalInit X := marshal kexECDHInitMsg (X, ())
  unmarshalInit b := (unmarshal kexECDHInitMsg b).map (fun m => m.1)
  marshalReply hostKey Y sig := marshal kexECDHReplyMsg (hostKey, Y, sig, ())
  unmarshalReply b := (unmarshal kexECDHReplyMsg b).map (fun m => (m.1, m.2.1, m.2.2.1))
  encode X := X
  shared := shared
  hash := hash

/-- They work if the secrets are the same. -/
theorem ecExchange_honest {Private : Type} {generate : Rand → Private}
    {publicValue : Private → Bytes} {shared : Private → Bytes → Except GoString ℤ} (hash : Hash)
    (h : ∀ r r', ∃ K, shared (generate r) (publicValue (generate r')) = .ok K
      ∧ shared (generate r') (publicValue (generate r)) = .ok K) :
    (ecExchange generate publicValue shared hash).Honest where
  agree := h
  init r hlen := congrArg (Except.map _)
    (unmarshal_marshal (t := kexECDHInitMsg) (fit_of_no_names (by decide) _) (by nofun) hlen)
  reply r hostKey sig hlen := congrArg (Except.map _)
    (unmarshal_marshal (t := kexECDHReplyMsg) (fit_of_no_names (by decide) _) (by nofun) hlen)
  initTag _ := rfl
  replyTag _ _ _ := rfl

/-- **`elliptic.Curve`**, as far as it is used. -/
structure Curve where
  p : ℕ
  marshal : ℕ × ℕ → Bytes
  unmarshal : Bytes → Option (ℕ × ℕ)
  isOnCurve : ℕ × ℕ → Bool
  scalarBaseMult : ℕ → ℕ × ℕ
  scalarMult : ℕ × ℕ → ℕ → ℕ × ℕ
  /-- The scalar of `ecdsa.GenerateKey`. -/
  generateKey : Rand → ℕ
  /-- `ecHash`. -/
  hash : Hash

namespace Curve

variable (curve : Curve)

/-- `validateECPublicKey`. -/
def validateECPublicKey (q : ℕ × ℕ) : Bool :=
  if q.1 = 0 ∧ q.2 = 0 then false
  else if curve.p ≤ q.1 then false
  else if curve.p ≤ q.2 then false
  else curve.isOnCurve q

/-- `unmarshalECKey`. -/
def unmarshalECKey (pubkey : Bytes) : Except GoString (ℕ × ℕ) :=
  match curve.unmarshal pubkey with
  | none => .error "ssh: elliptic.Unmarshal failure".toList
  | some q =>
    if curve.validateECPublicKey q then .ok q else .error "ssh: public key not on curve".toList

/-- The secret that is shared: the first coordinate. -/
def secret (d : ℕ) (theirs : Bytes) : Except GoString ℤ :=
  (curve.unmarshalECKey theirs).map (fun q => ((curve.scalarMult q d).1 : ℤ))

/-- **`ecdh`.** -/
def ecdh : Exchange :=
  ecExchange curve.generateKey (fun d => curve.marshal (curve.scalarBaseMult d)) curve.secret
    curve.hash

/-- What the algorithm needs of a curve. -/
structure Lawful : Prop where
  unmarshal : ∀ r, curve.unmarshal (curve.marshal (curve.scalarBaseMult (curve.generateKey r)))
    = some (curve.scalarBaseMult (curve.generateKey r))
  valid : ∀ r, curve.validateECPublicKey (curve.scalarBaseMult (curve.generateKey r)) = true
  comm : ∀ r r', curve.scalarMult (curve.scalarBaseMult (curve.generateKey r')) (curve.generateKey r)
    = curve.scalarMult (curve.scalarBaseMult (curve.generateKey r)) (curve.generateKey r')

theorem honest (h : curve.Lawful) : curve.ecdh.Honest := by
  have hsecret : ∀ r d, curve.secret d
      (curve.marshal (curve.scalarBaseMult (curve.generateKey r)))
        = .ok ((curve.scalarMult (curve.scalarBaseMult (curve.generateKey r)) d).1 : ℤ) := by
    intro r d
    rw [secret, unmarshalECKey, h.unmarshal]
    simp only []
    rw [if_pos (h.valid r)]
    rfl
  refine ecExchange_honest curve.hash fun r r' => ⟨_, hsecret r' _, ?_⟩
  rw [h.comm]
  exact hsecret r _

end Curve

/-- **`curve25519`.** -/
structure X25519 where
  scalarBaseMult : Bytes → Bytes
  scalarMult : (priv theirs : Bytes) → Bytes

namespace X25519

variable (curve : X25519)

/-- `curve25519Zeros`. -/
def zeros : Bytes := List.replicate 32 0

/-- The private value: `io.ReadFull(rand, kp.priv[:])`. -/
def generate (rand : Rand) : Bytes := padding rand 32

/-- The secret that is shared. -/
def secret (priv theirs : Bytes) : Except GoString ℤ :=
  if theirs.length ≠ 32 then
    .error "ssh: peer's curve25519 public value has wrong length".toList
  else if curve.scalarMult priv theirs = zeros then
    .error "ssh: peer's curve25519 public value has wrong order".toList
  else .ok (BigEndian.toNat (curve.scalarMult priv theirs) : ℤ)

/-- **`curve25519sha256`.** -/
def curve25519sha256 (sha256 : Hash) : Exchange :=
  ecExchange generate curve.scalarBaseMult curve.secret sha256

/-- What the algorithm needs of the curve. -/
structure Lawful : Prop where
  length : ∀ a, (curve.scalarBaseMult a).length = 32
  comm : ∀ a b, curve.scalarMult a (curve.scalarBaseMult b)
    = curve.scalarMult b (curve.scalarBaseMult a)
  order : ∀ a b, curve.scalarMult a (curve.scalarBaseMult b) ≠ zeros

theorem honest (h : curve.Lawful) (sha256 : Hash) : (curve.curve25519sha256 sha256).Honest := by
  have hsecret : ∀ a b, curve.secret a (curve.scalarBaseMult b)
      = .ok (BigEndian.toNat (curve.scalarMult a (curve.scalarBaseMult b)) : ℤ) := by
    intro a b
    rw [secret, if_neg (not_not.mpr (h.length b)), if_neg (h.order a b)]
  refine ecExchange_honest sha256 fun r r' => ⟨_, hsecret _ _, ?_⟩
  rw [h.comm]
  exact hsecret _ _

end X25519

/-! ## What is supported -/

/-- **The primitives** of the standard library that the connection is built
on. -/
structure Primitives where
  /-- `rand.Int`. -/
  randInt : Rand → ℕ → ℕ
  sha1 : Hash
  sha256 : Hash
  p256 : Curve
  p384 : Curve
  p521 : Curve
  x25519 : X25519
  aesCTR : (key iv : Bytes) → KeyStream
  rc4 : (key : Bytes) → KeyStream
  aesGCM : (key : Bytes) → Aead gcmTagSize
  aesCBC : (key : Bytes) → BlockMode aesBlockSize
  hmacSHA1 : (key : Bytes) → Mac
  hmacSHA256 : (key : Bytes) → Mac
  hmacSHA1_size : ∀ key, (hmacSHA1 key).size = 20
  hmacSHA256_size : ∀ key, (hmacSHA256 key).size = 32

def kexAlgoDH1SHA1 : Bytes := ascii "diffie-hellman-group1-sha1"
def kexAlgoDH14SHA1 : Bytes := ascii "diffie-hellman-group14-sha1"
def kexAlgoECDH256 : Bytes := ascii "ecdh-sha2-nistp256"
def kexAlgoECDH384 : Bytes := ascii "ecdh-sha2-nistp384"
def kexAlgoECDH521 : Bytes := ascii "ecdh-sha2-nistp521"
def kexAlgoCurve25519SHA256 : Bytes := ascii "curve25519-sha256@libssh.org"
def gcmCipherID : Bytes := ascii "aes128-gcm@openssh.com"
def aes128cbcID : Bytes := ascii "aes128-cbc"

/-- `streamCipherMode`. -/
structure StreamCipherMode where
  keySize : ℕ
  ivSize : ℕ
  skip : ℕ
  createFunc : Option ((key iv : Bytes) → KeyStream)

/-- `macMode`. -/
structure MacMode where
  keySize : ℕ
  new : (key : Bytes) → Mac
  new_size_le : ∀ key, (new key).size ≤ 32

namespace Primitives

variable (prim : Primitives)

/-- `kexAlgoMap`. -/
def kexAlgos : List (Bytes × Exchange) :=
  [(kexAlgoDH1SHA1, DhGroup.group1.exchange prim.randInt prim.sha1),
    (kexAlgoDH14SHA1, DhGroup.group14.exchange prim.randInt prim.sha1),
    (kexAlgoECDH521, prim.p521.ecdh), (kexAlgoECDH384, prim.p384.ecdh),
    (kexAlgoECDH256, prim.p256.ecdh),
    (kexAlgoCurve25519SHA256, prim.x25519.curve25519sha256 prim.sha256)]

def kexAlgoMap (name : Bytes) : Option Exchange := prim.kexAlgos.lookup name

/-- `cipherModes`. -/
def cipherModes (name : Bytes) : Option StreamCipherMode :=
  [(ascii "aes128-ctr", ⟨16, aesBlockSize, 0, some prim.aesCTR⟩),
    (ascii "aes192-ctr", ⟨24, aesBlockSize, 0, some prim.aesCTR⟩),
    (ascii "aes256-ctr", ⟨32, aesBlockSize, 0, some prim.aesCTR⟩),
    (ascii "arcfour128", ⟨16, 0, 1536, some (fun key _ => prim.rc4 key)⟩),
    (ascii "arcfour256", ⟨32, 0, 1536, some (fun key _ => prim.rc4 key)⟩),
    (ascii "arcfour", ⟨16, 0, 0, some (fun key _ => prim.rc4 key)⟩),
    -- these two are constructed in another way
    (gcmCipherID, StreamCipherMode.mk 16 12 0 none),
    (aes128cbcID, ⟨16, aesBlockSize, 0, none⟩)].lookup name

/-- `macModes`. -/
def macModes (name : Bytes) : Option MacMode :=
  [(ascii "hmac-sha2-256", MacMode.mk 32 prim.hmacSHA256
      (fun key => Nat.le_of_eq (prim.hmacSHA256_size key))),
    (ascii "hmac-sha1", ⟨20, prim.hmacSHA1, fun key => prim.hmacSHA1_size key ▸ by decide⟩),
    -- `truncatingMAC`
    (ascii "hmac-sha1-96", ⟨20,
      fun key => (prim.hmacSHA1 key).truncate 12 (prim.hmacSHA1_size key ▸ by decide),
      fun _ => (by decide : 12 ≤ 32)⟩)].lookup name

/-- **Primitives that work**: the curves commute. -/
structure Lawful : Prop where
  p256 : prim.p256.Lawful
  p384 : prim.p384.Lawful
  p521 : prim.p521.Lawful
  x25519 : prim.x25519.Lawful

/-- **Every key exchange works.** -/
theorem honest_of_kexAlgoMap (h : prim.Lawful) {name : Bytes} {k : Exchange}
    (hk : prim.kexAlgoMap name = some k) : k.Honest := by
  obtain ⟨l₁, l₂, hl, -⟩ := List.lookup_eq_some_iff.mp hk
  have hmem : (name, k) ∈ prim.kexAlgos := by
    rw [hl]
    exact List.mem_append_right _ List.mem_cons_self
  simp only [kexAlgos, List.mem_cons, List.not_mem_nil, or_false, Prod.mk.injEq] at hmem
  rcases hmem with ⟨-, rfl⟩ | ⟨-, rfl⟩ | ⟨-, rfl⟩ | ⟨-, rfl⟩ | ⟨-, rfl⟩ | ⟨-, rfl⟩
  · exact DhGroup.group1.honest prim.randInt prim.sha1
  · exact DhGroup.group14.honest prim.randInt prim.sha1
  · exact prim.p521.honest h.p521
  · exact prim.p384.honest h.p384
  · exact prim.p256.honest h.p256
  · exact prim.x25519.honest h.x25519 prim.sha256

end Primitives

/-! ## The keys of a direction -/

/-- `direction`. -/
structure Direction where
  ivTag : Bytes
  keyTag : Bytes
  macKeyTag : Bytes

def serverKeys : Direction := ⟨[66], [68], [70]⟩
def clientKeys : Direction := ⟨[65], [67], [69]⟩

/-- The loop of `generateKeyMaterial`, which fills `n` more bytes. Every
digest fills one byte at least. -/
def keyMaterialLoop (r : KexResult) (tag sessionID : Bytes) (digestsSoFar : Bytes) (n : ℕ) :
    ℕ → Bytes
  | 0 => []
  | fuel + 1 =>
    if n = 0 then []
    else
      let digest := r.hash.sum (r.K ++ (r.H
        ++ if digestsSoFar = [] then tag ++ sessionID else digestsSoFar))
      digest.take n ++ keyMaterialLoop r tag sessionID (digestsSoFar ++ digest)
        (n - digest.length) fuel

/-- `generateKeyMaterial`. -/
def generateKeyMaterial (r : KexResult) (sessionID tag : Bytes) (n : ℕ) : Bytes :=
  keyMaterialLoop r tag sessionID [] n n

theorem length_keyMaterialLoop (r : KexResult) (tag sessionID acc : Bytes) {n fuel : ℕ}
    (h : n ≤ fuel) : (keyMaterialLoop r tag sessionID acc n fuel).length = n := by
  induction fuel generalizing n acc with
  | zero => exact (Nat.le_zero.mp h).symm
  | succ fuel ih =>
    rw [keyMaterialLoop]
    split
    · rename_i hn
      exact hn.symm
    · have hpos := r.hash.size_pos
      rw [List.length_append, List.length_take, r.hash.length_sum, ih _ (by omega)]
      omega

/-- **There is as much key material as was asked for.** -/
@[simp] theorem length_generateKeyMaterial (r : KexResult) (sessionID tag : Bytes) (n : ℕ) :
    (generateKeyMaterial r sessionID tag n).length = n :=
  length_keyMaterialLoop r tag sessionID [] (Nat.le_refl n)

/-- The loop of `createStream` that drops the first bytes of the key stream,
512 at a time. -/
def dump (stream : KeyStream) (remainingToDump : ℕ) : ℕ → KeyStream
  | 0 => stream
  | fuel + 1 =>
    if remainingToDump = 0 then stream
    else dump (stream.skip (min remainingToDump 512)) (remainingToDump - min remainingToDump 512) fuel

/-- `createStream`. -/
def StreamCipherMode.createStream (mode : StreamCipherMode)
    (createFunc : (key iv : Bytes) → KeyStream) (key iv : Bytes) : KeyStream :=
  dump (createFunc (key.take mode.keySize) (iv.take mode.ivSize)) mode.skip mode.skip

/-- **`newPacketCipher`**, `none` where it panics. -/
def newPacketCipher (prim : Primitives) (d : Direction) (algs : DirectionAlgorithms)
    (r : KexResult) (sessionID : Bytes) : Option PacketCipher :=
  match prim.cipherModes algs.cipher, prim.macModes algs.mac with
  | some mode, some mac =>
    let iv := generateKeyMaterial r sessionID d.ivTag mode.ivSize
    let key := generateKeyMaterial r sessionID d.keyTag mode.keySize
    let macKey := generateKeyMaterial r sessionID d.macKeyTag mac.keySize
    if algs.cipher = gcmCipherID then some (.gcm ⟨prim.aesGCM key, iv⟩)
    else if algs.cipher = aes128cbcID then
      some (.cbc ⟨some (mac.new macKey), prim.aesCBC key, iv, mac.new_size_le macKey⟩)
    else
      match mode.createFunc with
      | none => none
      | some createFunc =>
        some (.stream ⟨some (mac.new macKey), mode.createStream createFunc key iv⟩)
  | _, _ => none

/-- **There are keys for every algorithm that is known.** -/
theorem exists_newPacketCipher {prim : Primitives} {algs : DirectionAlgorithms}
    (hc : (prim.cipherModes algs.cipher).isSome) (hm : (prim.macModes algs.mac).isSome)
    (d : Direction) (r : KexResult) (sessionID : Bytes) :
    ∃ c, newPacketCipher prim d algs r sessionID = some c := by
  obtain ⟨mode, hmode⟩ := Option.isSome_iff_exists.mp hc
  obtain ⟨mac, hmac⟩ := Option.isSome_iff_exists.mp hm
  rw [newPacketCipher, hmode, hmac]
  simp only []
  by_cases hgcm : algs.cipher = gcmCipherID
  · rw [if_pos hgcm]
    exact ⟨_, rfl⟩
  by_cases hcbc : algs.cipher = aes128cbcID
  · rw [if_neg hgcm, if_pos hcbc]
    exact ⟨_, rfl⟩
  rw [if_neg hgcm, if_neg hcbc]
  have hcreate : ∃ f, mode.createFunc = some f := by
    obtain ⟨l₁, l₂, hl, -⟩ := List.lookup_eq_some_iff.mp hmode
    have hmem := List.mem_append_right l₁ (List.mem_cons_self (a := (algs.cipher, mode)) (l := l₂))
    rw [← hl] at hmem
    simp only [List.mem_cons, List.not_mem_nil, or_false, Prod.mk.injEq] at hmem
    rcases hmem with ⟨-, rfl⟩ | ⟨-, rfl⟩ | ⟨-, rfl⟩ | ⟨-, rfl⟩ | ⟨-, rfl⟩ | ⟨-, rfl⟩ | ⟨h, -⟩ | ⟨h, -⟩
    · exact ⟨_, rfl⟩
    · exact ⟨_, rfl⟩
    · exact ⟨_, rfl⟩
    · exact ⟨_, rfl⟩
    · exact ⟨_, rfl⟩
    · exact ⟨_, rfl⟩
    · exact absurd h hgcm
    · exact absurd h hcbc
  obtain ⟨f, hf⟩ := hcreate
  rw [hf]
  exact ⟨_, rfl⟩

/-! ## Two sides with the same hash -/

/-- **An offer that is read as it was meant**: no name has a comma in it. -/
def KexInit.Fits (m : KexInit) : Prop :=
  Fit kexInitMsg.fields m.val ∧ m.marshal.length < 2 ^ 32

theorem KexInit.unmarshal_marshal {m : KexInit} (h : m.Fits) : KexInit.unmarshal m.marshal = .ok m := by
  rw [KexInit.unmarshal, KexInit.marshal, Ssh.unmarshal_marshal h.1 (by nofun) h.2]
  rfl

/-- What `enterKeyExchange` has settled before it runs a key exchange
algorithm. -/
structure Negotiated where
  otherInit : KexInit
  algs : Algorithms
  magics : HandshakeMagics

/-- The first half of `enterKeyExchange`, with the two `KexInit` messages. -/
def negotiate (isServer : Bool) (clientVersion serverVersion : Bytes) (myInit : KexInit)
    (myInitPacket otherInitPacket : Bytes) : Except GoString Negotiated := do
  let otherInit ← KexInit.unmarshal otherInitPacket
  if isServer then
    let algs ← findAgreedAlgorithms otherInit myInit
    return ⟨otherInit, algs, ⟨clientVersion, serverVersion, otherInitPacket, myInitPacket⟩⟩
  else
    let algs ← findAgreedAlgorithms myInit otherInit
    return ⟨otherInit, algs, ⟨clientVersion, serverVersion, myInitPacket, otherInitPacket⟩⟩

/-- What a client has negotiated. -/
theorem negotiate_client_iff {clientVersion serverVersion : Bytes} {mine : KexInit} {packet : Bytes}
    {n : Negotiated} :
    negotiate false clientVersion serverVersion mine mine.marshal packet = .ok n ↔
      KexInit.unmarshal packet = .ok n.otherInit
        ∧ findAgreedAlgorithms mine n.otherInit = .ok n.algs
        ∧ n.magics = ⟨clientVersion, serverVersion, mine.marshal, packet⟩ := by
  constructor
  · intro h
    obtain ⟨otherInit, hother, h⟩ := bind_eq_ok h
    obtain ⟨algs, halgs, h⟩ := bind_eq_ok h
    obtain rfl := Except.ok.inj h
    exact ⟨hother, halgs, rfl⟩
  · obtain ⟨otherInit, algs, magics⟩ := n
    rintro ⟨hother, halgs, rfl⟩
    rw [negotiate, hother, ok_bind, if_neg Bool.false_ne_true, halgs]
    rfl

/-- What a server has negotiated. -/
theorem negotiate_server_iff {clientVersion serverVersion : Bytes} {mine : KexInit} {packet : Bytes}
    {n : Negotiated} :
    negotiate true clientVersion serverVersion mine mine.marshal packet = .ok n ↔
      KexInit.unmarshal packet = .ok n.otherInit
        ∧ findAgreedAlgorithms n.otherInit mine = .ok n.algs
        ∧ n.magics = ⟨clientVersion, serverVersion, packet, mine.marshal⟩ := by
  constructor
  · intro h
    obtain ⟨otherInit, hother, h⟩ := bind_eq_ok h
    obtain ⟨algs, halgs, h⟩ := bind_eq_ok h
    obtain rfl := Except.ok.inj h
    exact ⟨hother, halgs, rfl⟩
  · obtain ⟨otherInit, algs, magics⟩ := n
    rintro ⟨hother, halgs, rfl⟩
    rw [negotiate, hother, ok_bind, if_pos rfl, halgs]
    rfl

section Downgrade

variable {prim : Primitives} {client server : KexInit} {cv sv cv' sv' : Bytes}
  {initC initS packetC packetS reply tC tS : Bytes} {nC nS : Negotiated} {kC kS : Exchange}
  {x y : Rand} {priv : HostSigner} {rC rS : KexResult}

/-- **Nobody can talk two sides into different algorithms.** Whatever was sent
to a client and to a server, by whomever: if both come to the end of a key
exchange with the same hash – the one the server signs and the client checks
the signature of – and what they hashed is not a collision, then each has
read the other's offer as it was made, they have chosen the same algorithms,
and they have the same secret, the same host key and the same versions. -/
theorem no_downgrade (hclient : client.Fits) (hserver : server.Fits)
    (hnC : negotiate false cv sv client client.marshal initS = .ok nC)
    (hnS : negotiate true cv' sv' server server.marshal initC = .ok nS)
    (hkC : prim.kexAlgoMap nC.algs.kex = some kC) (hkS : prim.kexAlgoMap nS.algs.kex = some kS)
    (hrC : kC.client x nC.magics packetS = .ok rC)
    (hrS : kS.server y nS.magics priv packetC = .ok (rS, reply))
    (htC : kC.clientTranscript x nC.magics packetS = .ok tC)
    (htS : kS.serverTranscript y nS.magics priv packetC = .ok tS) (hlen : tC.length < 2 ^ 32)
    (hcollision : kC.hash.sum tC = kS.hash.sum tS → tC = tS) (hH : rC.H = rS.H) :
    nC.otherInit = server ∧ nS.otherInit = client ∧ nC.algs = nS.algs ∧ rC.K = rS.K
      ∧ rC.hostKey = rS.hostKey ∧ rC.hash = rS.hash ∧ cv = cv' ∧ sv = sv' := by
  obtain ⟨Y, K, htC', hHC, hKC, hhC⟩ := Exchange.client_eq_ok hrC
  obtain ⟨X, K', htS', hHS, hKS, hhS⟩ := Exchange.server_eq_ok hrS
  obtain rfl := Except.ok.inj (htC.symm.trans htC')
  obtain rfl := Except.ok.inj (htS.symm.trans htS')
  obtain ⟨hmagics, hkey, -, -, rfl⟩ :=
    Exchange.transcript_inj (hcollision (hHC.symm.trans (hH.trans hHS))) hlen
  obtain ⟨hotherC, halgsC, hmC⟩ := negotiate_client_iff.mp hnC
  obtain ⟨hotherS, halgsS, hmS⟩ := negotiate_server_iff.mp hnS
  rw [hmC, hmS, HandshakeMagics.mk.injEq] at hmagics
  obtain ⟨hcv, hsv, hinitC, hinitS⟩ := hmagics
  -- each packet is the other side's own offer
  have hserver' : nC.otherInit = server := by
    rw [hinitS, KexInit.unmarshal_marshal hserver] at hotherC
    exact (Except.ok.inj hotherC).symm
  have hclient' : nS.otherInit = client := by
    rw [← hinitC, KexInit.unmarshal_marshal hclient] at hotherS
    exact (Except.ok.inj hotherS).symm
  have halgs : nC.algs = nS.algs := by
    rw [hserver'] at halgsC
    rw [hclient'] at halgsS
    exact Except.ok.inj (halgsC.symm.trans halgsS)
  rw [halgs, hkS] at hkC
  obtain rfl := Option.some.inj hkC
  exact ⟨hserver', hclient', halgs, hKC.trans hKS.symm, hkey, hhC.trans hhS.symm, hcv, hsv⟩

end Downgrade

/-! ## The plainest primitives -/

/-- A hash of `n + 1` bytes that tells nothing apart. -/
def plainHash (n : ℕ) : Hash :=
  ⟨fun _ => List.replicate (n + 1) 0, n + 1, fun _ => List.length_replicate, Nat.succ_pos n⟩

/-- A curve of one point. -/
def plainCurve : Curve where
  p := 5
  marshal _ := [4, 1, 1]
  unmarshal _ := some (1, 1)
  isOnCurve _ := true
  scalarBaseMult _ := (1, 1)
  scalarMult _ _ := (1, 1)
  generateKey _ := 1
  hash := plainHash 31

def plainX25519 : X25519 := ⟨fun _ => List.replicate 32 1, fun _ _ => List.replicate 32 1⟩

/-- A code of zeros. -/
def plainMac (n : ℕ) : Mac := ⟨fun _ => List.replicate n 0, n, fun _ => List.length_replicate⟩

def plainMode : BlockMode aesBlockSize where
  encrypt iv d := (d, iv)
  decrypt iv d := (d, iv)
  length_encrypt _ _ _ := rfl
  length_decrypt _ _ _ := rfl
  decrypt_encrypt _ _ _ := rfl
  encrypt_decrypt _ _ _ := rfl
  decrypt_append _ _ _ _ _ := rfl

/-- **Primitives that hide nothing**, and work. -/
def plainPrimitives : Primitives where
  randInt _ _ := 1
  sha1 := plainHash 19
  sha256 := plainHash 31
  p256 := plainCurve
  p384 := plainCurve
  p521 := plainCurve
  x25519 := plainX25519
  aesCTR _ _ := ⟨fun _ => 0, 0⟩
  rc4 _ := ⟨fun _ => 0, 0⟩
  aesGCM _ := plainAead
  aesCBC _ := plainMode
  hmacSHA1 _ := plainMac 20
  hmacSHA256 _ := plainMac 32
  hmacSHA1_size _ := rfl
  hmacSHA256_size _ := rfl

theorem plainCurve_lawful : plainCurve.Lawful := ⟨fun _ => rfl, fun _ => rfl, fun _ _ => rfl⟩

theorem plainPrimitives_lawful : plainPrimitives.Lawful where
  p256 := plainCurve_lawful
  p384 := plainCurve_lawful
  p521 := plainCurve_lawful
  x25519 := ⟨fun _ => rfl, fun _ _ => rfl, fun _ _ =>
    (by decide : List.replicate 32 (1 : UInt8) ≠ X25519.zeros)⟩

/-- An offer of one algorithm of each kind. -/
def plainOffer : KexInit where
  cookie := ⟨List.replicate 16 0, rfl⟩
  kexAlgos := [kexAlgoCurve25519SHA256]
  serverHostKeyAlgos := [ascii "ssh-rsa"]
  ciphersClientServer := [ascii "aes128-ctr"]
  ciphersServerClient := [ascii "aes128-ctr"]
  macsClientServer := [ascii "hmac-sha1"]
  macsServerClient := [ascii "hmac-sha1"]
  compressionClientServer := [ascii "none"]
  compressionServerClient := [ascii "none"]
  languagesClientServer := []
  languagesServerClient := []
  firstKexFollows := false
  reserved := 0

/-- A host key that signs everything in the same way. -/
def plainSigner : HostSigner := ⟨ascii "ssh-rsa", [7], fun _ => .ok ⟨ascii "ssh-rsa", [8]⟩⟩

theorem fits_singleton {s : Bytes} (h : comma ∉ s) (hs : s ≠ []) : FieldKind.names.Fits [s] := by
  refine ⟨fun s' hs' => ?_, fun heq => hs (List.cons.inj heq).1⟩
  rw [List.mem_singleton.mp hs']
  exact h

theorem plainOffer_fits : plainOffer.Fits := by
  have hnil : FieldKind.names.Fits [] := ⟨nofun, nofun⟩
  refine ⟨⟨trivial, fits_singleton ?_ ?_, fits_singleton ?_ ?_, fits_singleton ?_ ?_,
    fits_singleton ?_ ?_, fits_singleton ?_ ?_, fits_singleton ?_ ?_, fits_singleton ?_ ?_,
    fits_singleton ?_ ?_, hnil, hnil, trivial, trivial, trivial⟩, by decide +kernel⟩ <;>
  decide +kernel

/-- What the two sides with that offer agree on. -/
def plainAlgorithms : Algorithms where
  kex := kexAlgoCurve25519SHA256
  hostKey := ascii "ssh-rsa"
  w := ⟨ascii "aes128-ctr", ascii "hmac-sha1", ascii "none"⟩
  r := ⟨ascii "aes128-ctr", ascii "hmac-sha1", ascii "none"⟩

theorem findAgreedAlgorithms_plainOffer :
    findAgreedAlgorithms plainOffer plainOffer = .ok plainAlgorithms :=
  findAgreedAlgorithms_eq_ok_iff.mpr ⟨rfl, rfl, rfl, rfl, rfl, rfl, rfl, rfl⟩

theorem no_downgrade_plain : ∃ nC nS : Negotiated, ∃ rC rS : KexResult,
    negotiate false [] [] plainOffer plainOffer.marshal plainOffer.marshal = .ok nC
      ∧ negotiate true [] [] plainOffer plainOffer.marshal plainOffer.marshal = .ok nS
      ∧ rC.H = rS.H ∧ nC.otherInit = plainOffer ∧ nS.otherInit = plainOffer
      ∧ nC.algs = nS.algs ∧ rC.K = rS.K := by
  have hread := KexInit.unmarshal_marshal plainOffer_fits
  have hnC : negotiate false [] [] plainOffer plainOffer.marshal plainOffer.marshal
      = .ok ⟨plainOffer, plainAlgorithms, ⟨[], [], plainOffer.marshal, plainOffer.marshal⟩⟩ :=
    negotiate_client_iff.mpr ⟨hread, findAgreedAlgorithms_plainOffer, rfl⟩
  have hnS : negotiate true [] [] plainOffer plainOffer.marshal plainOffer.marshal
      = .ok ⟨plainOffer, plainAlgorithms, ⟨[], [], plainOffer.marshal, plainOffer.marshal⟩⟩ :=
    negotiate_server_iff.mpr ⟨hread, findAgreedAlgorithms_plainOffer, rfl⟩
  have hkex : plainPrimitives.kexAlgoMap plainAlgorithms.kex
      = some (plainX25519.curve25519sha256 (plainHash 31)) := rfl
  have hhonest := plainPrimitives.honest_of_kexAlgoMap plainPrimitives_lawful hkex
  obtain ⟨r, reply, t, sig, hrS, htS, -, hsig, hr, rfl, hclient⟩ := hhonest.run (fun _ => 0)
    (fun _ => 0) ⟨[], [], plainOffer.marshal, plainOffer.marshal⟩
    (fun _ => ⟨_, rfl⟩ : ∀ data, ∃ sig, plainSigner.sign data = .ok sig) (by decide +kernel)
  obtain rfl := Except.ok.inj hsig
  rw [hr] at hclient hrS
  obtain ⟨hrC, htC⟩ := hclient (by decide +kernel)
  have hlen : t.length < 2 ^ 32 := by
    obtain rfl := Except.ok.inj htS
    decide +kernel
  obtain ⟨hother, hother', halgs, hK, -⟩ := no_downgrade plainOffer_fits plainOffer_fits hnC hnS
    hkex hkex hrC hrS htC htS hlen (fun _ => rfl) rfl
  exact ⟨_, _, r, r, hnC, hnS, rfl, hother, hother', halgs, hK⟩

end Ssh
