import Mathlib.Tactic.Linarith
import Sesh.BigEndian
import Sesh.Runs
import Sesh.SshAuth

/-!
# The wire format of messages

The SSH library the program brings with it has one codec for all of its
messages (`ssh/messages.go`): `Marshal` and `Unmarshal` walk over the fields
of a struct by reflection, and what a message looks like on the wire is read
off its struct type. A struct type is therefore a value here
(`Ssh.StructType`), a struct of it is the tuple of its fields, and the two
functions are defined once for all of them.

What `Unmarshal` accepts is described apart from it: `FieldKind.Spells` says
which bytes spell which value of a field, and a packet is accepted with a
value exactly if it is the type's tag followed by bytes that spell the
value's fields (`unmarshal_eq_ok_iff`). Two kinds of fields have more than
one spelling, flags and large integers. From the description follow both
round trips. A struct comes back from its packet exactly if each of its name
lists is one that commas can separate (`unmarshal_marshal_iff`); a packet
comes back from its struct exactly if each of its fields has the spelling
that `Marshal` chooses (`marshal_unmarshal_iff`).

Lengths are 32 bits wide and so are the comparisons with them. A packet of
4 GiB or more is outside of the statements, not of the definitions.
-/

namespace Ssh

/-! ## Struct types -/

/-- The kinds of fields the codec knows. -/
inductive FieldKind
  | bool
  | array (n : ℕ)
  | uint64
  | uint32
  | uint8
  | string
  /-- A slice of bytes. -/
  | bytes
  /-- A slice of bytes with the tag `rest`. -/
  | rest
  /-- A slice of strings. -/
  | names
  | bigInt
  deriving DecidableEq, Repr

/-- The values of a field. Strings are bytes. -/
abbrev FieldKind.Val : FieldKind → Type
  | .bool => Bool
  | .array n => { b : Bytes // b.length = n }
  | .uint64 => UInt64
  | .uint32 => UInt32
  | .uint8 => UInt8
  | .string => Bytes
  | .bytes => Bytes
  | .rest => Bytes
  | .names => List Bytes
  | .bigInt => ℤ

structure Field where
  name : GoString
  kind : FieldKind
  deriving DecidableEq, Repr

/-- **A struct type**, as reflection sees it. A field that takes the rest of
a packet is the last one. -/
structure StructType where
  name : GoString
  /-- The number in the tag `sshtype` of the first field, zero if there is
  none. -/
  typeTag : UInt8
  fields : List Field
  restLast : ∀ f ∈ fields.dropLast, f.kind ≠ .rest

/-- The fields of a struct. -/
def Fields : List Field → Type
  | [] => Unit
  | f :: fs => f.kind.Val × Fields fs

/-- A struct of a type. -/
abbrev StructType.Val (t : StructType) : Type := Fields t.fields

/-! ## Errors -/

def parseError (tag : UInt8) : GoString :=
  "ssh: parse error in message type ".toList ++ showNat tag.toNat

def errShortRead : GoString := "ssh: short read".toList

/-- `fieldError`, as `Unmarshal` calls it for the kinds it knows: without a
problem. -/
def fieldError (t : StructType) (f : Field) : GoString :=
  "ssh: unmarshal error for field ".toList ++ f.name ++ " of type ".toList ++ t.name

/-! ## Reading and writing fields -/

/-- `binary.BigEndian.PutUint32`, `appendU32` and `appendInt`. -/
def putUint32 (n : ℕ) : Bytes := BigEndian.ofNat 4 n

def parseUint32 (data : Bytes) : Option (UInt32 × Bytes) :=
  if data.length < 4 then none
  else some (UInt32.ofNat (BigEndian.toNat (data.take 4)), data.drop 4)

def parseUint64 (data : Bytes) : Option (UInt64 × Bytes) :=
  if data.length < 8 then none
  else some (UInt64.ofNat (BigEndian.toNat (data.take 8)), data.drop 8)

def parseString (data : Bytes) : Option (Bytes × Bytes) :=
  if data.length < 4 then none
  -- the length of what is there is cut to 32 bits
  else if (data.drop 4).length % 2 ^ 32 < BigEndian.toNat (data.take 4) then none
  else some ((data.drop 4).take (BigEndian.toNat (data.take 4)),
    (data.drop 4).drop (BigEndian.toNat (data.take 4)))

/-- The separator of name lists. -/
def comma : UInt8 := 44

/-- The names in the contents of a name list. -/
def splitNames (contents : Bytes) : List Bytes :=
  if contents.length = 0 then [] else contents.splitOn comma

def parseNameList (data : Bytes) : Option (List Bytes × Bytes) :=
  match parseString data with
  | none => none
  | some (contents, rest) => some (splitNames contents, rest)

/-- The test `b&0x80 == 0x80`. -/
def topBit (b : UInt8) : Bool := b &&& 0x80 == 0x80

/-- The integer in the contents of a string, as two's complement. -/
def intOfBytes : Bytes → ℤ
  | [] => 0
  | b :: contents =>
    if topBit b then -((BigEndian.toNat (BigEndian.invert (b :: contents)) : ℤ) + 1)
    else BigEndian.toNat (b :: contents)

def parseInt (data : Bytes) : Option (ℤ × Bytes) :=
  match parseString data with
  | none => none
  | some (contents, rest) => some (intOfBytes contents, rest)

/-- The number of bytes `Marshal` sets aside for an integer. -/
def intLength (n : ℤ) : ℕ :=
  if n < 0 then
    let bitLen := Nat.size (-n - 1).toNat
    4 + (if bitLen % 8 = 0 then 1 else 0) + (bitLen + 7) / 8
  else if n = 0 then 4
  else
    let bitLen := Nat.size n.toNat
    4 + (if bitLen % 8 = 0 then 1 else 0) + (bitLen + 7) / 8

/-- What `marshalInt` writes behind the length. -/
def intBytes (n : ℤ) : Bytes :=
  if n < 0 then
    let bytes := BigEndian.invert (BigEndian.ofNatMin (-n - 1).toNat)
    match bytes with
    | [] => [0xff]
    | b :: _ => if topBit b then bytes else 0xff :: bytes
  else if n = 0 then []
  else
    let bytes := BigEndian.ofNatMin n.toNat
    match bytes with
    | [] => []
    | b :: _ => if topBit b then 0 :: bytes else bytes

def marshalInt (n : ℤ) : Bytes := putUint32 (intBytes n).length ++ intBytes n

/-- What one turn of `Unmarshal`'s loop reads, `none` where it fails. -/
def unmarshalField : (k : FieldKind) → Bytes → Option (k.Val × Bytes)
  | .bool, [] => none
  | .bool, b :: data => some (b != 0, data)
  | .array n, data =>
    if h : n ≤ data.length then
      some (⟨data.take n, List.length_take_of_le h⟩, data.drop n)
    else none
  | .uint64, data => parseUint64 data
  | .uint32, data => parseUint32 data
  | .uint8, [] => none
  | .uint8, b :: data => some (b, data)
  | .string, data => parseString data
  | .bytes, data => parseString data
  | .rest, data => some (data, [])
  | .names, data => parseNameList data
  | .bigInt, data => parseInt data

/-- The error of a turn that fails. -/
def unmarshalFailure (t : StructType) (f : Field) : GoString :=
  match f.kind with
  | .string => fieldError t f
  | _ => errShortRead

/-- The loop of `Unmarshal`: the fields, and what is left. -/
def unmarshalFields (t : StructType) :
    (fs : List Field) → Bytes → Except GoString (Fields fs × Bytes)
  | [], data => .ok ((), data)
  | f :: fs, data =>
    match unmarshalField f.kind data with
    | none => .error (unmarshalFailure t f)
    | some (v, data) =>
      match unmarshalFields t fs data with
      | .error err => .error err
      | .ok (vs, data) => .ok ((v, vs), data)

/-- What `Unmarshal` does behind the tag. -/
def unmarshalBody (t : StructType) (data : Bytes) : Except GoString t.Val :=
  match unmarshalFields t t.fields data with
  | .error err => .error err
  | .ok (v, []) => .ok v
  | .ok (_, _ :: _) => .error (parseError t.typeTag)

/-- **`Unmarshal`.** -/
def unmarshal (t : StructType) : Bytes → Except GoString t.Val
  | [] => .error (parseError t.typeTag)
  | b :: data =>
    if 0 < t.typeTag then
      if b ≠ t.typeTag then .error (unexpectedMessageError t.typeTag.toNat b.toNat)
      else unmarshalBody t data
    else unmarshalBody t (b :: data)

/-- What one turn of `marshalStruct`'s loop appends. -/
def marshalField : (k : FieldKind) → k.Val → Bytes
  | .bool, b => [if b then 1 else 0]
  | .array _, b => b.1
  | .uint64, n => BigEndian.ofNat 8 n.toNat
  | .uint32, n => putUint32 n.toNat
  | .uint8, b => [b]
  | .string, s => putUint32 s.length ++ s
  | .bytes, s => putUint32 s.length ++ s
  | .rest, s => s
  | .names, l =>
    let contents := [comma].intercalate l
    putUint32 contents.length ++ contents
  | .bigInt, n => marshalInt n

def marshalFields : (fs : List Field) → Fields fs → Bytes
  | [], _ => []
  | f :: fs, (v, vs) => marshalField f.kind v ++ marshalFields fs vs

/-- What stands in front of the fields. -/
def StructType.header (t : StructType) : Bytes := if 0 < t.typeTag then [t.typeTag] else []

/-- **`Marshal`.** -/
def marshal (t : StructType) (v : t.Val) : Bytes := t.header ++ marshalFields t.fields v

/-! ## The messages -/

/-- The bytes of an ASCII text. -/
def ascii (s : String) : Bytes := s.toList.map (fun c => UInt8.ofNat c.toNat)

/-- A field, as the source declares it. -/
def field (name : String) (k : FieldKind) : Field := ⟨name.toList, k⟩

def disconnectMsg : StructType :=
  ⟨"disconnectMsg".toList, 1,
    [field "Reason" .uint32, field "Message" .string, field "Language" .string], by decide⟩

def kexInitMsg : StructType :=
  ⟨"kexInitMsg".toList, 20,
    [field "Cookie" (.array 16), field "KexAlgos" .names, field "ServerHostKeyAlgos" .names,
      field "CiphersClientServer" .names, field "CiphersServerClient" .names,
      field "MACsClientServer" .names, field "MACsServerClient" .names,
      field "CompressionClientServer" .names, field "CompressionServerClient" .names,
      field "LanguagesClientServer" .names, field "LanguagesServerClient" .names,
      field "FirstKexFollows" .bool, field "Reserved" .uint32], by decide⟩

def kexDHInitMsg : StructType := ⟨"kexDHInitMsg".toList, 30, [field "X" .bigInt], by decide⟩

def kexECDHInitMsg : StructType :=
  ⟨"kexECDHInitMsg".toList, 30, [field "ClientPubKey" .bytes], by decide⟩

def kexECDHReplyMsg : StructType :=
  ⟨"kexECDHReplyMsg".toList, 31,
    [field "HostKey" .bytes, field "EphemeralPubKey" .bytes, field "Signature" .bytes], by decide⟩

def kexDHReplyMsg : StructType :=
  ⟨"kexDHReplyMsg".toList, 31,
    [field "HostKey" .bytes, field "Y" .bigInt, field "Signature" .bytes], by decide⟩

def serviceRequestMsg : StructType :=
  ⟨"serviceRequestMsg".toList, 5, [field "Service" .string], by decide⟩

def serviceAcceptMsg : StructType :=
  ⟨"serviceAcceptMsg".toList, 6, [field "Service" .string], by decide⟩

def userAuthRequestMsg : StructType :=
  ⟨"userAuthRequestMsg".toList, 50,
    [field "User" .string, field "Service" .string, field "Method" .string,
      field "Payload" .rest], by decide⟩

def userAuthFailureMsg : StructType :=
  ⟨"userAuthFailureMsg".toList, 51,
    [field "Methods" .names, field "PartialSuccess" .bool], by decide⟩

def userAuthInfoRequestMsg : StructType :=
  ⟨"userAuthInfoRequestMsg".toList, 60,
    [field "User" .string, field "Instruction" .string, field "DeprecatedLanguage" .string,
      field "NumPrompts" .uint32, field "Prompts" .rest], by decide⟩

def channelOpenMsg : StructType :=
  ⟨"channelOpenMsg".toList, 90,
    [field "ChanType" .string, field "PeersId" .uint32, field "PeersWindow" .uint32,
      field "MaxPacketSize" .uint32, field "TypeSpecificData" .rest], by decide⟩

def channelOpenConfirmMsg : StructType :=
  ⟨"channelOpenConfirmMsg".toList, 91,
    [field "PeersId" .uint32, field "MyId" .uint32, field "MyWindow" .uint32,
      field "MaxPacketSize" .uint32, field "TypeSpecificData" .rest], by decide⟩

def channelOpenFailureMsg : StructType :=
  ⟨"channelOpenFailureMsg".toList, 92,
    [field "PeersId" .uint32, field "Reason" .uint32, field "Message" .string,
      field "Language" .string], by decide⟩

def channelRequestMsg : StructType :=
  ⟨"channelRequestMsg".toList, 98,
    [field "PeersId" .uint32, field "Request" .string, field "WantReply" .bool,
      field "RequestSpecificData" .rest], by decide⟩

def channelRequestSuccessMsg : StructType :=
  ⟨"channelRequestSuccessMsg".toList, 99, [field "PeersId" .uint32], by decide⟩

def channelRequestFailureMsg : StructType :=
  ⟨"channelRequestFailureMsg".toList, 100, [field "PeersId" .uint32], by decide⟩

def channelCloseMsg : StructType :=
  ⟨"channelCloseMsg".toList, 97, [field "PeersId" .uint32], by decide⟩

def channelEOFMsg : StructType :=
  ⟨"channelEOFMsg".toList, 96, [field "PeersId" .uint32], by decide⟩

def globalRequestMsg : StructType :=
  ⟨"globalRequestMsg".toList, 80,
    [field "Type" .string, field "WantReply" .bool, field "Data" .rest], by decide⟩

def globalRequestSuccessMsg : StructType :=
  ⟨"globalRequestSuccessMsg".toList, 81, [field "Data" .rest], by decide⟩

def globalRequestFailureMsg : StructType :=
  ⟨"globalRequestFailureMsg".toList, 82, [field "Data" .rest], by decide⟩

def windowAdjustMsg : StructType :=
  ⟨"windowAdjustMsg".toList, 93,
    [field "PeersId" .uint32, field "AdditionalBytes" .uint32], by decide⟩

def userAuthPubKeyOkMsg : StructType :=
  ⟨"userAuthPubKeyOkMsg".toList, 60, [field "Algo" .string, field "PubKey" .bytes], by decide⟩

/-- What `decode` makes of a packet: the messages it tells apart. -/
inductive Message
  | disconnect (m : disconnectMsg.Val)
  | serviceRequest (m : serviceRequestMsg.Val)
  | serviceAccept (m : serviceAcceptMsg.Val)
  | kexInit (m : kexInitMsg.Val)
  | kexDHInit (m : kexDHInitMsg.Val)
  | kexDHReply (m : kexDHReplyMsg.Val)
  | userAuthRequest (m : userAuthRequestMsg.Val)
  | userAuthFailure (m : userAuthFailureMsg.Val)
  | userAuthPubKeyOk (m : userAuthPubKeyOkMsg.Val)
  | globalRequest (m : globalRequestMsg.Val)
  | globalRequestSuccess (m : globalRequestSuccessMsg.Val)
  | globalRequestFailure (m : globalRequestFailureMsg.Val)
  | channelOpen (m : channelOpenMsg.Val)
  | channelOpenConfirm (m : channelOpenConfirmMsg.Val)
  | channelOpenFailure (m : channelOpenFailureMsg.Val)
  | windowAdjust (m : windowAdjustMsg.Val)
  | channelEOF (m : channelEOFMsg.Val)
  | channelClose (m : channelCloseMsg.Val)
  | channelRequest (m : channelRequestMsg.Val)
  | channelRequestSuccess (m : channelRequestSuccessMsg.Val)
  | channelRequestFailure (m : channelRequestFailureMsg.Val)

/-- The struct a message is. -/
def Message.struct : Message → (t : StructType) × t.Val
  | .disconnect m => ⟨_, m⟩
  | .serviceRequest m => ⟨_, m⟩
  | .serviceAccept m => ⟨_, m⟩
  | .kexInit m => ⟨_, m⟩
  | .kexDHInit m => ⟨_, m⟩
  | .kexDHReply m => ⟨_, m⟩
  | .userAuthRequest m => ⟨_, m⟩
  | .userAuthFailure m => ⟨_, m⟩
  | .userAuthPubKeyOk m => ⟨_, m⟩
  | .globalRequest m => ⟨_, m⟩
  | .globalRequestSuccess m => ⟨_, m⟩
  | .globalRequestFailure m => ⟨_, m⟩
  | .channelOpen m => ⟨_, m⟩
  | .channelOpenConfirm m => ⟨_, m⟩
  | .channelOpenFailure m => ⟨_, m⟩
  | .windowAdjust m => ⟨_, m⟩
  | .channelEOF m => ⟨_, m⟩
  | .channelClose m => ⟨_, m⟩
  | .channelRequest m => ⟨_, m⟩
  | .channelRequestSuccess m => ⟨_, m⟩
  | .channelRequestFailure m => ⟨_, m⟩

/-- The packet of a message. -/
def Message.marshal (m : Message) : Bytes := Ssh.marshal m.struct.1 m.struct.2

/-- **`decode`** of a packet that begins with the byte `b`. -/
def decode (b : UInt8) (data : Bytes) : Except GoString Message :=
  let packet := b :: data
  match b.toNat with
  | 1 => (unmarshal disconnectMsg packet).map .disconnect
  | 5 => (unmarshal serviceRequestMsg packet).map .serviceRequest
  | 6 => (unmarshal serviceAcceptMsg packet).map .serviceAccept
  | 20 => (unmarshal kexInitMsg packet).map .kexInit
  | 30 => (unmarshal kexDHInitMsg packet).map .kexDHInit
  | 31 => (unmarshal kexDHReplyMsg packet).map .kexDHReply
  | 50 => (unmarshal userAuthRequestMsg packet).map .userAuthRequest
  | 51 => (unmarshal userAuthFailureMsg packet).map .userAuthFailure
  | 60 => (unmarshal userAuthPubKeyOkMsg packet).map .userAuthPubKeyOk
  | 80 => (unmarshal globalRequestMsg packet).map .globalRequest
  | 81 => (unmarshal globalRequestSuccessMsg packet).map .globalRequestSuccess
  | 82 => (unmarshal globalRequestFailureMsg packet).map .globalRequestFailure
  | 90 => (unmarshal channelOpenMsg packet).map .channelOpen
  | 91 => (unmarshal channelOpenConfirmMsg packet).map .channelOpenConfirm
  | 92 => (unmarshal channelOpenFailureMsg packet).map .channelOpenFailure
  | 93 => (unmarshal windowAdjustMsg packet).map .windowAdjust
  | 96 => (unmarshal channelEOFMsg packet).map .channelEOF
  | 97 => (unmarshal channelCloseMsg packet).map .channelClose
  | 98 => (unmarshal channelRequestMsg packet).map .channelRequest
  | 99 => (unmarshal channelRequestSuccessMsg packet).map .channelRequestSuccess
  | 100 => (unmarshal channelRequestFailureMsg packet).map .channelRequestFailure
  | tag => .error (unexpectedMessageError 0 tag)

/-! ## Integers -/

theorem topBit_iff (b : UInt8) : topBit b = true ↔ 128 ≤ b.toNat := by
  have h : ∀ x : BitVec 8, (x &&& 0x80#8 = 0x80#8) ↔ 128 ≤ x.toNat := by decide
  have hb := h b.toBitVec
  rw [topBit, beq_iff_eq, ← UInt8.toBitVec_inj]
  exact hb

theorem topBit_not (b : UInt8) : topBit (~~~b) = !topBit b := by
  have hb : b.toNat < 256 := b.toNat_lt
  rw [Bool.eq_iff_iff, topBit_iff, BigEndian.toNat_not, Bool.not_eq_true', ← Bool.not_eq_true,
    topBit_iff]
  omega

theorem toNat_cons_pos {x : UInt8} {b : Bytes} (hx : x ≠ 0) :
    (0 : ℤ) < BigEndian.toNat (x :: b) := by
  have hw := BigEndian.width_toNat (b := b) hx
  refine Int.natCast_pos.mpr (Nat.pos_of_ne_zero fun h => ?_)
  rw [h] at hw
  cases hw

/-- The bytes of a positive integer: a zero stands in front where the number
would look negative. -/
theorem intBytes_toNat {x : UInt8} {b : Bytes} (hx : x ≠ 0) :
    intBytes (BigEndian.toNat (x :: b)) = if topBit x then 0 :: x :: b else x :: b := by
  rw [intBytes, if_neg (by omega), if_neg (toNat_cons_pos hx).ne', Int.toNat_natCast,
    BigEndian.ofNatMin_toNat hx]

/-- The bytes of a negative integer: those of the number one off, inverted,
with a byte in front where the number would look positive. -/
theorem intBytes_negSucc_toNat {x : UInt8} {b : Bytes} (hx : x ≠ 0) :
    intBytes (Int.negSucc (BigEndian.toNat (x :: b)))
      = if topBit x then 0xff :: BigEndian.invert (x :: b) else BigEndian.invert (x :: b) := by
  have hm : (-Int.negSucc (BigEndian.toNat (x :: b)) - 1).toNat = BigEndian.toNat (x :: b) := by
    omega
  rw [intBytes, if_pos (Int.negSucc_lt_zero _), hm, BigEndian.ofNatMin_toNat hx]
  show (if topBit (~~~x) then _ else _) = _
  rw [topBit_not]
  cases topBit x <;> rfl

theorem topBit_iff_size {x : UInt8} {b : Bytes} (hx : x ≠ 0) :
    topBit x = true ↔ Nat.size (BigEndian.toNat (x :: b)) % 8 = 0 := by
  rw [topBit_iff, BigEndian.size_toNat hx]

/-- The numbers of the four kinds an integer is written by. -/
theorem int_cases (n : ℤ) :
    n = 0 ∨ n = -1
      ∨ (∃ x b, x ≠ 0 ∧ n = BigEndian.toNat (x :: b))
      ∨ ∃ x b, x ≠ 0 ∧ n = Int.negSucc (BigEndian.toNat (x :: b)) := by
  match n with
  | .ofNat 0 => exact .inl rfl
  | .ofNat (m + 1) =>
    obtain ⟨x, b, hx, hm⟩ := BigEndian.exists_toNat (Nat.succ_pos m)
    exact .inr (.inr (.inl ⟨x, b, hx, by rw [hm]; rfl⟩))
  | .negSucc 0 => exact .inr (.inl rfl)
  | .negSucc (m + 1) =>
    obtain ⟨x, b, hx, hm⟩ := BigEndian.exists_toNat (Nat.succ_pos m)
    exact .inr (.inr (.inr ⟨x, b, hx, by rw [hm]⟩))

/-- What is set aside for a number of this size. -/
theorem setAside_eq {x : UInt8} {b : Bytes} (hx : x ≠ 0) :
    4 + (if Nat.size (BigEndian.toNat (x :: b)) % 8 = 0 then 1 else 0)
        + (Nat.size (BigEndian.toNat (x :: b)) + 7) / 8
      = 4 + ((if topBit x then 1 else 0) + (x :: b).length) := by
  have hw := BigEndian.width_toNat (b := b) hx
  rw [BigEndian.width] at hw
  rw [hw, if_congr (topBit_iff_size hx).symm rfl rfl, Nat.add_assoc]

/-- **`Marshal` sets aside what `marshalInt` writes**: neither is anything
cut off, nor is a byte left over. -/
theorem length_marshalInt (n : ℤ) : (marshalInt n).length = intLength n := by
  rw [marshalInt, List.length_append, putUint32, BigEndian.length_ofNat, intLength]
  rcases int_cases n with rfl | rfl | ⟨x, b, hx, rfl⟩ | ⟨x, b, hx, rfl⟩
  · rfl
  · rfl
  · rw [if_neg (by omega), if_neg (toNat_cons_pos hx).ne', Int.toNat_natCast]
    refine Eq.trans ?_ (setAside_eq hx).symm
    rw [intBytes_toNat hx]
    cases topBit x
    · exact congrArg (4 + ·) (Nat.zero_add _).symm
    · exact congrArg (4 + ·) (Nat.add_comm _ 1)
  · have hm : (-Int.negSucc (BigEndian.toNat (x :: b)) - 1).toNat = BigEndian.toNat (x :: b) := by
      omega
    rw [if_pos (Int.negSucc_lt_zero _), hm]
    refine Eq.trans ?_ (setAside_eq hx).symm
    rw [intBytes_negSucc_toNat hx, ← BigEndian.length_invert (x :: b)]
    cases topBit x
    · exact congrArg (4 + ·) (Nat.zero_add _).symm
    · exact congrArg (4 + ·) (Nat.add_comm _ 1)

/-- The number in bytes whose first bit is not set. -/
theorem intOfBytes_of_not_topBit {x : UInt8} {b : Bytes} (h : topBit x = false) :
    intOfBytes (x :: b) = BigEndian.toNat (x :: b) := by
  rw [intOfBytes, h]
  rfl

/-- The number in bytes whose first bit is set. -/
theorem intOfBytes_of_topBit {x : UInt8} {b : Bytes} (h : topBit x = true) :
    intOfBytes (x :: b) = Int.negSucc (BigEndian.toNat (BigEndian.invert (x :: b))) := by
  rw [intOfBytes, if_pos h, Int.negSucc_eq]

/-- A byte that only repeats the sign changes nothing. -/
theorem toNat_zero_cons (b : Bytes) : BigEndian.toNat (0 :: b) = BigEndian.toNat b := by
  rw [BigEndian.toNat_cons]
  exact (congrArg (· + _) (Nat.zero_mul _)).trans (Nat.zero_add _)

/-- **An integer is read as it was written.** -/
theorem intOfBytes_intBytes (n : ℤ) : intOfBytes (intBytes n) = n := by
  rcases int_cases n with rfl | rfl | ⟨x, b, hx, rfl⟩ | ⟨x, b, hx, rfl⟩
  · rfl
  · rfl
  · rw [intBytes_toNat hx]
    cases h : topBit x with
    | true => rw [if_pos rfl, intOfBytes_of_not_topBit rfl, toNat_zero_cons]
    | false => rw [if_neg Bool.false_ne_true, intOfBytes_of_not_topBit h]
  · rw [intBytes_negSucc_toNat hx]
    cases h : topBit x with
    | true =>
      have hinv : BigEndian.invert (0xff :: BigEndian.invert (x :: b))
          = 0 :: BigEndian.invert (BigEndian.invert (x :: b)) := rfl
      rw [if_pos rfl, intOfBytes_of_topBit rfl, hinv, BigEndian.invert_invert, toNat_zero_cons]
    | false =>
      have htop : topBit (~~~x) = true := by rw [topBit_not, h]; rfl
      have hread := intOfBytes_of_topBit (b := BigEndian.invert b) htop
      have hinv : BigEndian.invert (x :: b) = ~~~x :: BigEndian.invert b := rfl
      rw [if_neg Bool.false_ne_true, hinv, hread, ← hinv, BigEndian.invert_invert]

/-- **An integer in no more bytes than it needs**: the first byte is not one
that only repeats the sign. -/
def ShortestInt : Bytes → Prop
  | [] => True
  | [x] => x ≠ 0
  | x :: y :: _ => ¬ (x = 0 ∧ topBit y = false) ∧ ¬ (x = 0xff ∧ topBit y = true)

instance : DecidablePred ShortestInt
  | [] => isTrue trivial
  | [x] => inferInstanceAs (Decidable (x ≠ 0))
  | x :: y :: _ => inferInstanceAs
      (Decidable (¬ (x = 0 ∧ topBit y = false) ∧ ¬ (x = 0xff ∧ topBit y = true)))

theorem ne_zero_of_topBit {x : UInt8} (h : topBit x = true) : x ≠ 0 :=
  fun hx => by rw [hx] at h; exact Bool.false_ne_true h

theorem ne_ff_of_not_topBit {x : UInt8} (h : topBit x = false) : x ≠ 0xff :=
  fun hx => by rw [hx] at h; exact Bool.false_ne_true h.symm

/-- A byte that is inverted to zero. -/
theorem not_eq_zero_iff {x : UInt8} : ~~~x = 0 ↔ x = 0xff := by
  rw [← UInt8.toNat_inj, ← UInt8.toNat_inj, BigEndian.toNat_not]
  have hx : x.toNat < 256 := x.toNat_lt
  show 255 - x.toNat = 0 ↔ x.toNat = 255
  omega

/-- A byte in front that does not repeat the sign of what follows. -/
theorem shortestInt_cons {x : UInt8} {b : Bytes} (h₀ : x ≠ 0) (hff : x = 0xff → b = []) :
    ShortestInt (x :: b) := by
  cases b with
  | nil => exact h₀
  | cons y b => exact ⟨fun h => h₀ h.1, fun h => List.cons_ne_nil y b (hff h.1)⟩

/-- What `marshalInt` writes is as short as can be. -/
theorem shortestInt_intBytes (n : ℤ) : ShortestInt (intBytes n) := by
  rcases int_cases n with rfl | rfl | ⟨x, b, hx, rfl⟩ | ⟨x, b, hx, rfl⟩
  · trivial
  · exact (by decide : ShortestInt [0xff])
  · rw [intBytes_toNat hx]
    cases h : topBit x with
    | true =>
      rw [if_pos rfl]
      exact ⟨fun hc => Bool.false_ne_true (hc.2.symm.trans h), nofun⟩
    | false =>
      rw [if_neg Bool.false_ne_true]
      exact shortestInt_cons hx fun hff => absurd hff (ne_ff_of_not_topBit h)
  · have htop := topBit_not x
    rw [intBytes_negSucc_toNat hx]
    cases h : topBit x with
    | true =>
      rw [h] at htop
      rw [if_pos rfl]
      exact ⟨nofun, fun hc => Bool.false_ne_true (htop.symm.trans hc.2)⟩
    | false =>
      rw [h] at htop
      rw [if_neg Bool.false_ne_true]
      refine shortestInt_cons (ne_zero_of_topBit htop) fun hff => absurd ?_ hx
      rwa [← not_eq_zero_iff, UInt8.not_not] at hff

/-- **An integer is written as it was read**, if it was read from no more
bytes than it needs. -/
theorem intBytes_intOfBytes {c : Bytes} (hc : ShortestInt c) : intBytes (intOfBytes c) = c := by
  match c, hc with
  | [], _ => rfl
  | x :: b, hc =>
    cases h : topBit x with
    | false =>
      rw [intOfBytes_of_not_topBit h]
      by_cases hx : x = 0
      · -- the zero is there for the sign
        subst hx
        match b, hc with
        | y :: b, hc =>
          have hy : topBit y = true := Bool.not_eq_false _ ▸ fun hy => hc.1 ⟨rfl, hy⟩
          rw [toNat_zero_cons, intBytes_toNat (ne_zero_of_topBit hy), if_pos hy]
      · rw [intBytes_toNat hx, h]
        rfl
    | true =>
      rw [intOfBytes_of_topBit h]
      by_cases hx : x = 0xff
      · subst hx
        have hinv : BigEndian.invert (0xff :: b) = 0 :: BigEndian.invert b := rfl
        rw [hinv, toNat_zero_cons]
        match b, hc with
        | [], _ => rfl
        | y :: b, hc =>
          have hy : topBit y = false := Bool.not_eq_true _ ▸ fun hy => hc.2 ⟨rfl, hy⟩
          have hny : topBit (~~~y) = true := by rw [topBit_not, hy]; rfl
          have hcons : BigEndian.invert (y :: b) = ~~~y :: BigEndian.invert b := rfl
          rw [hcons, intBytes_negSucc_toNat (ne_zero_of_topBit hny), if_pos hny, ← hcons,
            BigEndian.invert_invert]
      · have hcons : BigEndian.invert (x :: b) = ~~~x :: BigEndian.invert b := rfl
        have hne : ~~~x ≠ 0 := fun h₀ => hx (not_eq_zero_iff.mp h₀)
        have hnx : topBit (~~~x) = false := by rw [topBit_not, h]; rfl
        rw [hcons, intBytes_negSucc_toNat hne, hnx, if_neg Bool.false_ne_true, ← hcons,
          BigEndian.invert_invert]

/-- The spelling of an integer is the one `marshalInt` chooses exactly if it
is the shortest. -/
theorem intBytes_intOfBytes_iff (c : Bytes) : intBytes (intOfBytes c) = c ↔ ShortestInt c :=
  ⟨fun h => h ▸ shortestInt_intBytes _, intBytes_intOfBytes⟩

/-! ## What a packet spells -/

/-- **Bytes behind their length.** -/
def Prefixed (b contents : Bytes) : Prop :=
  contents.length < 2 ^ 32 ∧ b = putUint32 contents.length ++ contents

/-- **Which bytes spell which value of a field.** A flag may be any byte, and
an integer may repeat its sign. -/
def FieldKind.Spells : (k : FieldKind) → Bytes → k.Val → Prop
  | .bool, b, v => ∃ x, b = [x] ∧ v = (x != 0)
  | .array _, b, v => b = v.1
  | .uint64, b, v => b = BigEndian.ofNat 8 v.toNat
  | .uint32, b, v => b = putUint32 v.toNat
  | .uint8, b, v => b = [v]
  | .string, b, v => Prefixed b v
  | .bytes, b, v => Prefixed b v
  | .rest, b, v => b = v
  | .names, b, v => ∃ contents, Prefixed b contents ∧ v = splitNames contents
  | .bigInt, b, v => ∃ contents, Prefixed b contents ∧ v = intOfBytes contents

/-- The pieces of a packet spell the fields of a struct, one by one. -/
def Spell : (fs : List Field) → List Bytes → Fields fs → Prop
  | [], pieces, _ => pieces = []
  | f :: fs, pieces, (v, vs) =>
    ∃ b bs, pieces = b :: bs ∧ f.kind.Spells b v ∧ Spell fs bs vs

@[simp] theorem length_putUint32 (n : ℕ) : (putUint32 n).length = 4 := BigEndian.length_ofNat 4 n

theorem toNat_putUint32 {n : ℕ} (h : n < 2 ^ 32) : BigEndian.toNat (putUint32 n) = n :=
  BigEndian.toNat_ofNat_of_lt h

/-- What was read as 32 bits is written as it was. -/
theorem putUint32_toNat {b : Bytes} (h : b.length = 4) : putUint32 (BigEndian.toNat b) = b := by
  rw [putUint32, ← h, BigEndian.ofNat_toNat]

theorem toNat_lt_of_length_four {b : Bytes} (h : b.length = 4) :
    BigEndian.toNat b < 2 ^ 32 := by
  have hlt := BigEndian.toNat_lt b
  rw [h] at hlt
  exact hlt

/-- A string is read from bytes behind their length. -/
theorem prefixed_of_parseString {data contents rest : Bytes}
    (h : parseString data = some (contents, rest)) :
    ∃ b, Prefixed b contents ∧ data = b ++ rest := by
  unfold parseString at h
  split at h
  · cases h
  · rename_i hlen
    have h4 : (data.take 4).length = 4 := List.length_take_of_le (by omega)
    split at h
    · cases h
    · rename_i hle
      obtain ⟨rfl, rfl⟩ := Prod.mk.inj (Option.some.inj h)
      have hmod := Nat.mod_le (data.drop 4).length (2 ^ 32)
      have hcl : ((data.drop 4).take (BigEndian.toNat (data.take 4))).length
          = BigEndian.toNat (data.take 4) := List.length_take_of_le (by omega)
      refine ⟨_, ⟨?_, rfl⟩, ?_⟩
      · rw [hcl]
        exact toNat_lt_of_length_four h4
      · rw [hcl, putUint32_toNat h4, List.append_assoc, List.take_append_drop,
          List.take_append_drop]

/-- Bytes behind their length are read as a string. -/
theorem parseString_of_prefixed {b contents rest : Bytes} (h : Prefixed b contents)
    (hlen : (b ++ rest).length < 2 ^ 32) : parseString (b ++ rest) = some (contents, rest) := by
  obtain ⟨hc, rfl⟩ := h
  have h4 : (putUint32 contents.length ++ contents ++ rest).take 4 = putUint32 contents.length := by
    rw [List.append_assoc]
    exact List.take_left' (length_putUint32 _)
  have hd : (putUint32 contents.length ++ contents ++ rest).drop 4 = contents ++ rest := by
    rw [List.append_assoc]
    exact List.drop_left' (length_putUint32 _)
  have hmod : (contents ++ rest).length % 2 ^ 32 = (contents ++ rest).length := by
    apply Nat.mod_eq_of_lt
    simp only [List.length_append, length_putUint32] at hlen ⊢
    omega
  rw [parseString, if_neg (by simp only [List.length_append, length_putUint32]; omega), h4, hd,
    toNat_putUint32 hc, hmod, if_neg (by rw [List.length_append]; omega), List.take_left,
    List.drop_left]

/-- A name list is read from a string. -/
theorem contents_of_parseNameList {data rest : Bytes} {v : List Bytes}
    (h : parseNameList data = some (v, rest)) :
    ∃ contents, parseString data = some (contents, rest) ∧ v = splitNames contents := by
  unfold parseNameList at h
  split at h
  · cases h
  · rename_i contents rest' hs
    obtain ⟨rfl, rfl⟩ := Prod.mk.inj (Option.some.inj h)
    exact ⟨contents, hs, rfl⟩

/-- An integer is read from a string. -/
theorem contents_of_parseInt {data rest : Bytes} {v : ℤ} (h : parseInt data = some (v, rest)) :
    ∃ contents, parseString data = some (contents, rest) ∧ v = intOfBytes contents := by
  unfold parseInt at h
  split at h
  · cases h
  · rename_i contents rest' hs
    obtain ⟨rfl, rfl⟩ := Prod.mk.inj (Option.some.inj h)
    exact ⟨contents, hs, rfl⟩

theorem eq_of_parseUint32 {data rest : Bytes} {v : UInt32}
    (h : parseUint32 data = some (v, rest)) : data = putUint32 v.toNat ++ rest := by
  unfold parseUint32 at h
  split at h
  · cases h
  · rename_i hlen
    obtain ⟨rfl, rfl⟩ := Prod.mk.inj (Option.some.inj h)
    have h4 : (data.take 4).length = 4 := List.length_take_of_le (by omega)
    rw [UInt32.toNat_ofNat_of_lt' (toNat_lt_of_length_four h4), putUint32_toNat h4,
      List.take_append_drop]

theorem parseUint32_putUint32 (v : UInt32) (rest : Bytes) :
    parseUint32 (putUint32 v.toNat ++ rest) = some (v, rest) := by
  have h4 := length_putUint32 v.toNat
  rw [parseUint32, if_neg (by rw [List.length_append, h4]; omega), List.take_left' h4,
    List.drop_left' h4, toNat_putUint32 v.toNat_lt, UInt32.ofNat_toNat]

theorem eq_of_parseUint64 {data rest : Bytes} {v : UInt64}
    (h : parseUint64 data = some (v, rest)) : data = BigEndian.ofNat 8 v.toNat ++ rest := by
  unfold parseUint64 at h
  split at h
  · cases h
  · rename_i hlen
    obtain ⟨rfl, rfl⟩ := Prod.mk.inj (Option.some.inj h)
    have h8 : (data.take 8).length = 8 := List.length_take_of_le (by omega)
    have hlt := BigEndian.toNat_lt (data.take 8)
    have hback := BigEndian.ofNat_toNat (data.take 8)
    rw [h8] at hlt hback
    rw [UInt64.toNat_ofNat_of_lt' hlt, hback, List.take_append_drop]

theorem parseUint64_ofNat (v : UInt64) (rest : Bytes) :
    parseUint64 (BigEndian.ofNat 8 v.toNat ++ rest) = some (v, rest) := by
  have h8 := BigEndian.length_ofNat 8 v.toNat
  rw [parseUint64, if_neg (by rw [List.length_append, h8]; omega), List.take_left' h8,
    List.drop_left' h8, BigEndian.toNat_ofNat_of_lt v.toNat_lt, UInt64.ofNat_toNat]

/-- **What a turn of the loop reads** is a piece that spells it. -/
theorem spells_of_unmarshalField {k : FieldKind} {data rest : Bytes} {v : k.Val}
    (h : unmarshalField k data = some (v, rest)) : ∃ b, k.Spells b v ∧ data = b ++ rest := by
  match k, v, data, h with
  | .bool, v, x :: data, h =>
    obtain ⟨rfl, rfl⟩ := Prod.mk.inj (Option.some.inj h)
    exact ⟨[x], ⟨x, rfl, rfl⟩, rfl⟩
  | .array n, v, data, h =>
    by_cases hn : n ≤ data.length
    · obtain ⟨rfl, rfl⟩ := Prod.mk.inj (Option.some.inj ((dif_pos hn).symm.trans h))
      exact ⟨data.take n, rfl, (List.take_append_drop n data).symm⟩
    · cases (dif_neg hn).symm.trans h
  | .uint64, v, data, h => exact ⟨_, rfl, eq_of_parseUint64 h⟩
  | .uint32, v, data, h => exact ⟨_, rfl, eq_of_parseUint32 h⟩
  | .uint8, v, x :: data, h =>
    obtain ⟨rfl, rfl⟩ := Prod.mk.inj (Option.some.inj h)
    exact ⟨[x], rfl, rfl⟩
  | .string, v, data, h => exact prefixed_of_parseString h
  | .bytes, v, data, h => exact prefixed_of_parseString h
  | .rest, v, data, h =>
    obtain ⟨rfl, rfl⟩ := Prod.mk.inj (Option.some.inj h)
    exact ⟨data, rfl, (List.append_nil data).symm⟩
  | .names, v, data, h =>
    obtain ⟨contents, hs, rfl⟩ := contents_of_parseNameList h
    obtain ⟨b, hb, hd⟩ := prefixed_of_parseString hs
    exact ⟨b, ⟨contents, hb, rfl⟩, hd⟩
  | .bigInt, v, data, h =>
    obtain ⟨contents, hs, rfl⟩ := contents_of_parseInt h
    obtain ⟨b, hb, hd⟩ := prefixed_of_parseString hs
    exact ⟨b, ⟨contents, hb, rfl⟩, hd⟩

/-- **A piece that spells a value is read as that value**, whatever follows;
a field that takes the rest is followed by nothing. -/
theorem unmarshalField_of_spells {k : FieldKind} {b rest : Bytes} {v : k.Val}
    (h : k.Spells b v) (hrest : k = .rest → rest = []) (hlen : (b ++ rest).length < 2 ^ 32) :
    unmarshalField k (b ++ rest) = some (v, rest) := by
  match k, v, h with
  | .bool, v, ⟨x, hx, hv⟩ =>
    subst hx hv
    rfl
  | .array n, ⟨v, hv⟩, h =>
    obtain rfl : b = v := h
    subst hv
    show (if h : b.length ≤ (b ++ rest).length then _ else _) = _
    rw [dif_pos (by rw [List.length_append]; omega)]
    simp only [List.take_left, List.drop_left]
  | .uint64, v, h =>
    obtain rfl : b = _ := h
    exact parseUint64_ofNat v rest
  | .uint32, v, h =>
    obtain rfl : b = _ := h
    exact parseUint32_putUint32 v rest
  | .uint8, v, h =>
    obtain rfl : b = [v] := h
    rfl
  | .string, v, h => exact parseString_of_prefixed h hlen
  | .bytes, v, h => exact parseString_of_prefixed h hlen
  | .rest, v, h =>
    obtain rfl : b = v := h
    rw [hrest rfl, List.append_nil]
    rfl
  | .names, v, ⟨contents, hb, hv⟩ =>
    subst hv
    show parseNameList (b ++ rest) = _
    rw [parseNameList, parseString_of_prefixed hb hlen]
  | .bigInt, v, ⟨contents, hb, hv⟩ =>
    subst hv
    show parseInt (b ++ rest) = _
    rw [parseInt, parseString_of_prefixed hb hlen]

/-- The fields that were read, piece by piece. -/
theorem spell_of_unmarshalFields {t : StructType} {fs : List Field} {data rest : Bytes}
    {vs : Fields fs} (h : unmarshalFields t fs data = .ok (vs, rest)) :
    ∃ pieces, Spell fs pieces vs ∧ data = pieces.flatten ++ rest := by
  induction fs generalizing data with
  | nil =>
    obtain ⟨rfl, rfl⟩ := Prod.mk.inj (Except.ok.inj h)
    exact ⟨[], rfl, rfl⟩
  | cons f fs ih =>
    unfold unmarshalFields at h
    split at h
    · cases h
    · rename_i v data' hv
      split at h
      · cases h
      · rename_i vs' rest' hvs
        obtain ⟨rfl, rfl⟩ := Prod.mk.inj (Except.ok.inj h)
        obtain ⟨b, hb, rfl⟩ := spells_of_unmarshalField hv
        obtain ⟨bs, hbs, rfl⟩ := ih hvs
        refine ⟨b :: bs, ⟨b, bs, rfl, hb, hbs⟩, ?_⟩
        rw [List.flatten_cons, List.append_assoc]

/-- Pieces that spell the fields are read as these fields. -/
theorem unmarshalFields_of_spell {t : StructType} {fs : List Field} {pieces : List Bytes}
    {vs : Fields fs} (h : Spell fs pieces vs) (hfs : ∀ f ∈ fs.dropLast, f.kind ≠ .rest)
    (hlen : pieces.flatten.length < 2 ^ 32) :
    unmarshalFields t fs pieces.flatten = .ok (vs, []) := by
  induction fs generalizing pieces with
  | nil =>
    obtain rfl : pieces = [] := h
    rfl
  | cons f fs ih =>
    obtain ⟨v, vs⟩ := vs
    obtain ⟨b, bs, rfl, hb, hbs⟩ := h
    -- only the last field may take the rest, and behind it there is nothing
    have hrest : f.kind = .rest → bs.flatten = [] := by
      intro hf
      cases fs with
      | nil =>
        obtain rfl : bs = [] := hbs
        rfl
      | cons f' fs => exact absurd hf (hfs f (by rw [List.dropLast_cons_cons]; exact .head _))
    have hfs' : ∀ g ∈ fs.dropLast, g.kind ≠ .rest := by
      intro g hg
      cases fs with
      | nil => cases hg
      | cons f' fs => exact hfs g (by rw [List.dropLast_cons_cons]; exact .tail _ hg)
    rw [List.flatten_cons] at hlen ⊢
    have hlen' : bs.flatten.length < 2 ^ 32 := by
      rw [List.length_append] at hlen
      omega
    have hrec := ih hbs hfs' hlen'
    rw [unmarshalFields, unmarshalField_of_spells hb hrest hlen]
    show (match unmarshalFields t fs bs.flatten with
      | .error err => _
      | .ok (vs, data) => _) = _
    rw [hrec]

/-- What `Unmarshal` makes of a packet, apart from the tag. -/
theorem unmarshal_append_header {t : StructType} {body : Bytes} (h : t.header ++ body ≠ []) :
    unmarshal t (t.header ++ body) = unmarshalBody t body := by
  by_cases ht : 0 < t.typeTag
  · have hh : t.header = [t.typeTag] := if_pos ht
    rw [hh, List.singleton_append, unmarshal, if_pos ht, if_neg (fun hne => hne rfl)]
  · have hh : t.header = [] := if_neg ht
    rw [hh, List.nil_append] at h ⊢
    cases body with
    | nil => exact absurd rfl h
    | cons b body => rw [unmarshal, if_neg ht]

/-- A packet that is accepted begins with the tag of the type. -/
theorem header_of_unmarshal {t : StructType} {data : Bytes} {v : t.Val}
    (h : unmarshal t data = .ok v) : data ≠ [] ∧ ∃ body, data = t.header ++ body := by
  match data, h with
  | b :: data, h =>
    refine ⟨List.cons_ne_nil b data, ?_⟩
    by_cases ht : 0 < t.typeTag
    · rw [unmarshal, if_pos ht] at h
      by_cases hb : b = t.typeTag
      · exact ⟨data, by rw [StructType.header, if_pos ht, hb]; rfl⟩
      · rw [if_pos hb] at h
        cases h
    · exact ⟨b :: data, by rw [StructType.header, if_neg ht]; rfl⟩

/-- What is accepted is spelled by the packet. -/
theorem spell_of_unmarshal {t : StructType} {data : Bytes} {v : t.Val}
    (h : unmarshal t data = .ok v) :
    data ≠ [] ∧ ∃ pieces, Spell t.fields pieces v ∧ data = t.header ++ pieces.flatten := by
  obtain ⟨hne, body, rfl⟩ := header_of_unmarshal h
  refine ⟨hne, ?_⟩
  rw [unmarshal_append_header hne, unmarshalBody] at h
  split at h
  · cases h
  · rename_i w hw
    obtain rfl : w = v := Except.ok.inj h
    obtain ⟨pieces, hp, rfl⟩ := spell_of_unmarshalFields hw
    exact ⟨pieces, hp, by rw [List.append_nil]⟩
  · cases h

/-- What a packet spells is what it is read as. -/
theorem unmarshal_of_spell {t : StructType} {pieces : List Bytes} {v : t.Val}
    (hp : Spell t.fields pieces v) (hne : t.header ++ pieces.flatten ≠ [])
    (hlen : (t.header ++ pieces.flatten).length < 2 ^ 32) :
    unmarshal t (t.header ++ pieces.flatten) = .ok v := by
  have hbody : pieces.flatten.length < 2 ^ 32 := by
    rw [List.length_append] at hlen
    omega
  rw [unmarshal_append_header hne, unmarshalBody, unmarshalFields_of_spell hp t.restLast hbody]

/-- **`Unmarshal` accepts exactly what its struct type describes**: a packet
is read as a struct where it is the tag of the type, if there is one,
followed by a spelling of each field in turn, and nothing else. Only an empty
packet is never accepted, not even by a type that has neither a tag nor a
field that needs a byte. -/
theorem unmarshal_eq_ok_iff (t : StructType) (data : Bytes) (v : t.Val)
    (hlen : data.length < 2 ^ 32) :
    unmarshal t data = .ok v
      ↔ data ≠ [] ∧ ∃ pieces, Spell t.fields pieces v ∧ data = t.header ++ pieces.flatten := by
  refine ⟨spell_of_unmarshal, ?_⟩
  rintro ⟨hne, pieces, hp, rfl⟩
  exact unmarshal_of_spell hp hne hlen

/-- A window adjustment of 256 bytes for channel 1. -/
theorem unmarshal_windowAdjust :
    unmarshal windowAdjustMsg [93, 0, 0, 0, 1, 0, 0, 1, 0] = .ok ((1 : UInt32), (256 : UInt32), ()) :=
  (unmarshal_eq_ok_iff windowAdjustMsg [93, 0, 0, 0, 1, 0, 0, 1, 0]
    ((1 : UInt32), (256 : UInt32), ()) (by decide)).mpr
    ⟨nofun, [[0, 0, 0, 1], [0, 0, 1, 0]],
      ⟨_, _, rfl, rfl, _, _, rfl, rfl, rfl⟩, rfl⟩

/-! ## Round trips -/

/-- **The values of a field that commas can separate.** An empty list and a
list of one empty name look the same. -/
def FieldKind.Fits : (k : FieldKind) → k.Val → Prop
  | .names, l => (∀ s ∈ l, comma ∉ s) ∧ l ≠ [[]]
  | _, _ => True

/-- All fields of a struct do. -/
def Fit : (fs : List Field) → Fields fs → Prop
  | [], _ => True
  | f :: fs, (v, vs) => f.kind.Fits v ∧ Fit fs vs

/-- A struct without name lists fits. -/
theorem fit_of_no_names {fs : List Field} (h : ∀ f ∈ fs, f.kind ≠ .names) (vs : Fields fs) :
    Fit fs vs := by
  induction fs with
  | nil => trivial
  | cons f fs ih =>
    refine ⟨?_, ih (fun g hg => h g (List.mem_cons_of_mem f hg)) vs.2⟩
    have hf := h f List.mem_cons_self
    obtain ⟨name, kind⟩ := f
    cases kind with
    | names => exact absurd rfl hf
    | _ => trivial

/-- What is split at commas is separated by them. -/
theorem intercalate_splitNames (contents : Bytes) :
    [comma].intercalate (splitNames contents) = contents := by
  unfold splitNames
  split
  · rename_i h
    rw [List.length_eq_zero_iff.mp h]
    rfl
  · exact List.intercalate_splitOn comma

theorem fits_splitNames (contents : Bytes) : FieldKind.names.Fits (splitNames contents) := by
  unfold splitNames
  split
  · exact ⟨nofun, nofun⟩
  · rename_i h
    refine ⟨fun s hs => Runs.notMem_of_mem_splitOn hs, fun hs => h ?_⟩
    have hjoin : [comma].intercalate (contents.splitOn comma) = contents :=
      List.intercalate_splitOn comma
    rw [hs] at hjoin
    rw [← hjoin]
    rfl

theorem splitNames_intercalate {l : List Bytes} (h : FieldKind.names.Fits l) :
    splitNames ([comma].intercalate l) = l := by
  cases l with
  | nil => rfl
  | cons s l =>
    have hsplit := List.splitOn_intercalate comma h.1 (List.cons_ne_nil s l)
    rw [splitNames, if_neg, hsplit]
    intro h₀
    rw [List.length_eq_zero_iff.mp h₀] at hsplit
    exact h.2 hsplit.symm

/-- What is spelled fits. -/
theorem fits_of_spells {k : FieldKind} {b : Bytes} {v : k.Val} (h : k.Spells b v) :
    k.Fits v := by
  match k, v, h with
  | .names, v, ⟨contents, _, hv⟩ =>
    subst hv
    exact fits_splitNames contents
  | .bool, _, _ | .array _, _, _ | .uint64, _, _ | .uint32, _, _ | .uint8, _, _
  | .string, _, _ | .bytes, _, _ | .rest, _, _ | .bigInt, _, _ => trivial

theorem length_lt_of_length_prefixed {contents : Bytes}
    (h : (putUint32 contents.length ++ contents).length < 2 ^ 32) :
    contents.length < 2 ^ 32 := by
  rw [List.length_append] at h
  omega

/-- **What `Marshal` appends for a value spells it.** -/
theorem spells_marshalField {k : FieldKind} {v : k.Val} (hv : k.Fits v)
    (hlen : (marshalField k v).length < 2 ^ 32) : k.Spells (marshalField k v) v := by
  match k, v, hv, hlen with
  | .bool, true, _, _ => exact ⟨1, rfl, rfl⟩
  | .bool, false, _, _ => exact ⟨0, rfl, rfl⟩
  | .array _, _, _, _ | .uint64, _, _, _ | .uint32, _, _, _ | .uint8, _, _, _
  | .rest, _, _, _ => exact rfl
  | .string, v, _, hlen | .bytes, v, _, hlen => exact ⟨length_lt_of_length_prefixed hlen, rfl⟩
  | .names, l, hl, hlen =>
    exact ⟨_, ⟨length_lt_of_length_prefixed hlen, rfl⟩, (splitNames_intercalate hl).symm⟩
  | .bigInt, n, _, hlen =>
    exact ⟨_, ⟨length_lt_of_length_prefixed hlen, rfl⟩, (intOfBytes_intBytes n).symm⟩

/-- The pieces `Marshal` puts together. -/
def marshalPieces : (fs : List Field) → Fields fs → List Bytes
  | [], _ => []
  | f :: fs, (v, vs) => marshalField f.kind v :: marshalPieces fs vs

theorem flatten_marshalPieces (fs : List Field) (vs : Fields fs) :
    (marshalPieces fs vs).flatten = marshalFields fs vs := by
  induction fs with
  | nil => rfl
  | cons f fs ih =>
    obtain ⟨v, vs⟩ := vs
    rw [marshalPieces, marshalFields, List.flatten_cons, ih]

theorem fit_of_spell {fs : List Field} {pieces : List Bytes} {vs : Fields fs}
    (h : Spell fs pieces vs) : Fit fs vs := by
  induction fs generalizing pieces with
  | nil => trivial
  | cons f fs ih =>
    obtain ⟨v, vs⟩ := vs
    obtain ⟨b, bs, -, hb, hbs⟩ := h
    exact ⟨fits_of_spells hb, ih hbs⟩

theorem spell_marshalPieces {fs : List Field} {vs : Fields fs} (h : Fit fs vs)
    (hlen : (marshalFields fs vs).length < 2 ^ 32) : Spell fs (marshalPieces fs vs) vs := by
  induction fs with
  | nil => rfl
  | cons f fs ih =>
    obtain ⟨v, vs⟩ := vs
    rw [marshalFields, List.length_append] at hlen
    exact ⟨_, _, rfl, spells_marshalField h.1 (by omega), ih h.2 (by omega)⟩

theorem marshal_eq_flatten (t : StructType) (v : t.Val) :
    marshal t v = t.header ++ (marshalPieces t.fields v).flatten := by
  rw [flatten_marshalPieces, marshal]

theorem length_marshalFields_lt {t : StructType} {v : t.Val}
    (hlen : (marshal t v).length < 2 ^ 32) : (marshalFields t.fields v).length < 2 ^ 32 := by
  rw [marshal, List.length_append] at hlen
  omega

/-- A struct that fits comes back from its packet. -/
theorem unmarshal_marshal {t : StructType} {v : t.Val} (hv : Fit t.fields v)
    (hne : marshal t v ≠ []) (hlen : (marshal t v).length < 2 ^ 32) :
    unmarshal t (marshal t v) = .ok v := by
  have hp := spell_marshalPieces hv (length_marshalFields_lt hlen)
  rw [marshal_eq_flatten] at hne hlen ⊢
  exact unmarshal_of_spell hp hne hlen

/-- **A struct comes back from its packet** exactly if commas can separate
the names in each of its name lists. Integers of any sign and size come back,
and so do strings of any bytes. -/
theorem unmarshal_marshal_iff (t : StructType) (v : t.Val) (hlen : (marshal t v).length < 2 ^ 32) :
    unmarshal t (marshal t v) = .ok v ↔ marshal t v ≠ [] ∧ Fit t.fields v := by
  constructor
  · intro h
    obtain ⟨hne, pieces, hp, -⟩ := spell_of_unmarshal h
    exact ⟨hne, fit_of_spell hp⟩
  · rintro ⟨hne, hv⟩
    exact unmarshal_marshal hv hne hlen

/-- The list of one empty name does not come back. -/
theorem unmarshal_marshal_empty_name :
    unmarshal userAuthFailureMsg (marshal userAuthFailureMsg ([[]], true, ()))
      ≠ .ok ([[]], true, ()) := by
  intro h
  have hfit := (unmarshal_marshal_iff userAuthFailureMsg ([[]], true, ()) (by decide)).mp h
  exact hfit.2.1.2 rfl

/-- **The spelling `Marshal` chooses**: a flag is zero or one, and an integer
is as short as can be. -/
def FieldKind.Plain : FieldKind → Bytes → Prop
  | .bool, b => b = [0] ∨ b = [1]
  | .bigInt, b => ShortestInt (b.drop 4)
  | _, _ => True

theorem plain_marshalField (k : FieldKind) (v : k.Val) : k.Plain (marshalField k v) := by
  match k, v with
  | .bool, true => exact .inr rfl
  | .bool, false => exact .inl rfl
  | .bigInt, n =>
    show ShortestInt ((putUint32 (intBytes n).length ++ intBytes n).drop 4)
    rw [List.drop_left' (length_putUint32 _)]
    exact shortestInt_intBytes n
  | .array _, _ | .uint64, _ | .uint32, _ | .uint8, _ | .string, _ | .bytes, _ | .rest, _
  | .names, _ => trivial

/-- A plain spelling is what `Marshal` makes of what it spells. -/
theorem marshalField_of_spells {k : FieldKind} {b : Bytes} {v : k.Val} (h : k.Spells b v)
    (hb : k.Plain b) : marshalField k v = b := by
  match k, v, h, hb with
  | .bool, v, ⟨x, hx, hv⟩, hb =>
    subst hx hv
    rcases hb with hb | hb
    · rw [(List.cons.inj hb).1]
      rfl
    · rw [(List.cons.inj hb).1]
      rfl
  | .array _, _, h, _ | .uint64, _, h, _ | .uint32, _, h, _ | .uint8, _, h, _ | .rest, _, h, _ =>
    exact Eq.symm h
  | .string, _, h, _ | .bytes, _, h, _ => exact h.2.symm
  | .names, v, ⟨contents, hb, hv⟩, _ =>
    subst hv
    show putUint32 ([comma].intercalate (splitNames contents)).length ++ _ = b
    rw [intercalate_splitNames, hb.2]
  | .bigInt, v, ⟨contents, hb, hv⟩, hs =>
    subst hv
    have hs : ShortestInt (b.drop 4) := hs
    rw [hb.2, List.drop_left' (length_putUint32 _)] at hs
    show marshalInt (intOfBytes contents) = b
    rw [marshalInt, intBytes_intOfBytes hs, hb.2]

/-- All pieces of a packet are plain. -/
def PlainPieces (fs : List Field) (pieces : List Bytes) : Prop :=
  List.Forall₂ (fun f b => f.kind.Plain b) fs pieces

theorem plainPieces_marshalPieces (fs : List Field) (vs : Fields fs) :
    PlainPieces fs (marshalPieces fs vs) := by
  induction fs with
  | nil => exact .nil
  | cons f fs ih =>
    obtain ⟨v, vs⟩ := vs
    exact .cons (plain_marshalField f.kind v) (ih vs)

theorem marshalFields_of_spell {fs : List Field} {pieces : List Bytes} {vs : Fields fs}
    (h : Spell fs pieces vs) (hp : PlainPieces fs pieces) :
    marshalFields fs vs = pieces.flatten := by
  induction fs generalizing pieces with
  | nil =>
    obtain rfl : pieces = [] := h
    rfl
  | cons f fs ih =>
    obtain ⟨v, vs⟩ := vs
    obtain ⟨b, bs, rfl, hb, hbs⟩ := h
    cases hp with
    | cons hpb hpbs =>
      rw [marshalFields, marshalField_of_spells hb hpb, ih hbs hpbs, List.flatten_cons]

/-- **A packet comes back from its struct** exactly if each of its pieces is
the spelling that `Marshal` chooses. What a peer sends may be read and still
not be what this side would have sent: a flag that is neither zero nor one,
or an integer with its sign repeated. -/
theorem marshal_unmarshal_iff (t : StructType) (data : Bytes) (v : t.Val)
    (hlen : data.length < 2 ^ 32) (h : unmarshal t data = .ok v) :
    marshal t v = data
      ↔ ∃ pieces, Spell t.fields pieces v ∧ data = t.header ++ pieces.flatten
          ∧ PlainPieces t.fields pieces := by
  constructor
  · intro hm
    obtain ⟨-, pieces, hp, -⟩ := spell_of_unmarshal h
    have hfields := length_marshalFields_lt (hm ▸ hlen)
    exact ⟨marshalPieces t.fields v, spell_marshalPieces (fit_of_spell hp) hfields,
      hm ▸ marshal_eq_flatten t v, plainPieces_marshalPieces t.fields v⟩
  · rintro ⟨pieces, hp, rfl, hplain⟩
    rw [marshal, marshalFields_of_spell hp hplain]

/-- A packet with a flag that is one comes back. -/
theorem marshal_unmarshal_flag :
    marshal userAuthFailureMsg ([[110]], true, ()) = [51, 0, 0, 0, 1, 110, 1] := by
  have hs : Spell userAuthFailureMsg.fields [[0, 0, 0, 1, 110], [1]] ([[110]], true, ()) :=
    ⟨_, _, rfl, ⟨[110], ⟨by decide, rfl⟩, rfl⟩, _, _, rfl, ⟨1, rfl, rfl⟩, rfl⟩
  exact (marshal_unmarshal_iff userAuthFailureMsg [51, 0, 0, 0, 1, 110, 1] ([[110]], true, ())
    (by decide) (unmarshal_of_spell hs nofun (by decide))).mpr
    ⟨_, hs, rfl, .cons trivial (.cons (.inr rfl) .nil)⟩

/-- **`decode` picks the type of the message by its tag**: a message that
fits comes back. -/
theorem decode_of_marshal {m : Message} {b : UInt8} {data : Bytes} (hb : m.marshal = b :: data)
    (hm : Fit m.struct.1.fields m.struct.2) (hlen : m.marshal.length < 2 ^ 32) :
    decode b data = .ok m := by
  have h : unmarshal m.struct.1 (b :: data) = .ok m.struct.2 := by
    have hne : m.marshal ≠ [] := by
      rw [hb]
      exact List.cons_ne_nil b data
    rw [← hb]
    exact unmarshal_marshal hm hne hlen
  cases m <;>
  · obtain rfl : _ = b := (List.cons.inj hb).1
    exact congrArg (Except.map _) h

end Ssh
