import Sesh.SshChannel
import Sesh.Symmetric

/-!
# Packets on the wire

Every packet of a connection goes through a packet cipher (`ssh/cipher.go`):
it is given a length and some padding, encrypted and authenticated. There is
one for stream ciphers and one for AES in CBC mode, where the length is
encrypted too, and one for AES-GCM, where it is not. The ciphers themselves
are parameters, known by their laws (`Sesh.Symmetric`).

Which bytes a packet cipher accepts is described apart from how it reads
them: `PacketCipher.frame` is a packet with some padding as it looks on the
wire, and `readPacket` accepts exactly the frames of packets that are not
empty and not too large, with any padding of a length it takes
(`PacketCipher.readPacket_ok`). What is written is such a frame, but the two
sides disagree about what is too large: the writer looks at the packet, if at
anything, and the reader at the packet with its padding, so that some packets
are written and then refused.
-/

namespace Ssh

open Symmetric

/-- `packetSizeMultiple`. -/
def packetSizeMultiple : ℕ := 16

/-- `prefixLen`: the length of a packet, and that of its padding. -/
def prefixLen : ℕ := 5

/-- What `io.ReadFull(rand, padding)` reads. -/
def padding (rand : ℕ → UInt8) (n : ℕ) : Bytes := (List.range n).map rand

@[simp] theorem length_padding (rand : ℕ → UInt8) (n : ℕ) : (padding rand n).length = n := by
  rw [padding, List.length_map, List.length_range]

/-- The padding of a packet whose header and payload have `n` bytes. -/
def paddingTo (n : ℕ) : ℕ :=
  let paddingLength := packetSizeMultiple - n % packetSizeMultiple
  if paddingLength < 4 then paddingLength + packetSizeMultiple else paddingLength

theorem paddingTo_bounds (n : ℕ) : 4 ≤ paddingTo n ∧ paddingTo n < 20 := by
  unfold paddingTo packetSizeMultiple
  have := Nat.mod_lt n (show 16 > 0 by decide)
  simp only []
  split <;> omega

/-- How reading a packet ends, where there is something to read. -/
inductive ReadEnd (γ : Type)
  /-- The packet, what is left, and the cipher for the next one. -/
  | ok (packet rest : Bytes) (next : γ)
  | error (msg : GoString)
  /-- An index is out of range. -/
  | crash

/-- How writing a packet ends. -/
inductive WriteEnd (γ : Type)
  | ok (out : Bytes) (next : γ)
  | error (msg : GoString)
  | crash

/-- The same with another cipher for the next packet. -/
def ReadEnd.map {γ δ : Type} (f : γ → δ) : ReadEnd γ → ReadEnd δ
  | ok packet rest next => ok packet rest (f next)
  | error msg => error msg
  | crash => crash

/-- The same with another cipher for the next packet. -/
def WriteEnd.map {γ δ : Type} (f : γ → δ) : WriteEnd γ → WriteEnd δ
  | ok out next => ok out (f next)
  | error msg => error msg
  | crash => crash

theorem ReadEnd.map_eq_ok {γ δ : Type} {f : γ → δ} {x : Option (ReadEnd γ)} {p rest : Bytes}
    {d : δ} : x.map (ReadEnd.map f) = some (.ok p rest d)
      ↔ ∃ c, x = some (.ok p rest c) ∧ d = f c := by
  rw [Option.map_eq_some_iff]
  constructor
  · rintro ⟨y, hy, heq⟩
    cases y with
    | ok p' rest' c =>
      obtain ⟨rfl, rfl, rfl⟩ := ReadEnd.ok.inj heq
      exact ⟨c, hy, rfl⟩
    | error msg => cases heq
    | crash => cases heq
  · rintro ⟨c, hc, rfl⟩
    exact ⟨_, hc, rfl⟩

/-- The size of the code behind a packet, if there is one. -/
def macSize : Option Mac → ℕ
  | none => 0
  | some m => m.size

/-- The code behind a packet, if there is one. -/
def macResult (mac : Option Mac) (seqNum : UInt32) (data : Bytes) : Bytes :=
  match mac with
  | none => []
  | some m => m.sum (putUint32 seqNum.toNat ++ data)

theorem length_macResult (mac : Option Mac) (seqNum : UInt32) (data : Bytes) :
    (macResult mac seqNum data).length = macSize mac := by
  cases mac with
  | none => rfl
  | some m => exact m.length_sum _

/-- The header of a packet. -/
def header (length paddingLength : ℕ) : Bytes := putUint32 length ++ [UInt8.ofNat paddingLength]

@[simp] theorem length_header (n k : ℕ) : (header n k).length = prefixLen := by
  rw [header, List.length_append, length_putUint32]
  rfl

/-- The length and the padding in a header. -/
theorem header_spec {n k : ℕ} (hn : n < 2 ^ 32) (hk : k < 256) :
    BigEndian.toNat ((header n k).take 4) = n ∧ ((header n k).getD 4 0).toNat = k := by
  have htake : (header n k).take 4 = putUint32 n := List.take_left' (length_putUint32 n)
  have hget : (header n k).getD 4 0 = UInt8.ofNat k := rfl
  rw [htake, hget, toNat_putUint32 hn, UInt8.toNat_ofNat_of_lt' hk]
  exact ⟨rfl, rfl⟩

theorem header_inj {n k m j : ℕ} (hn : n < 2 ^ 32) (hk : k < 256) (hm : m < 2 ^ 32)
    (hj : j < 256) (h : header n k = header m j) : n = m ∧ k = j := by
  obtain ⟨hlength, hpad⟩ := header_spec hn hk
  rw [h, (header_spec hm hj).1] at hlength
  rw [h, (header_spec hm hj).2] at hpad
  exact ⟨hlength.symm, hpad.symm⟩

/-- A header is its length and its padding. -/
theorem eq_header {pre : Bytes} (h : pre.length = prefixLen) :
    pre = header (BigEndian.toNat (pre.take 4)) (pre.getD 4 0).toNat := by
  match pre, h with
  | [a, b, c, d, e], _ =>
    show [a, b, c, d] ++ [e] = putUint32 (BigEndian.toNat [a, b, c, d]) ++ [UInt8.ofNat e.toNat]
    rw [putUint32_toNat rfl, UInt8.ofNat_toNat]

/-! ## Stream ciphers -/

/-- **`streamPacketCipher`.** -/
structure StreamPacketCipher where
  mac : Option Mac
  cipher : KeyStream

namespace StreamPacketCipher

/-- `writePacket`. -/
def writePacket (s : StreamPacketCipher) (seqNum : UInt32) (rand : ℕ → UInt8) (packet : Bytes) :
    WriteEnd StreamPacketCipher :=
  if maxPacket < packet.length then .error "ssh: packet too large".toList
  else
    let paddingLength := paddingTo (prefixLen + packet.length)
    let length := packet.length + 1 + paddingLength
    let pre := header length paddingLength
    let pad := padding rand paddingLength
    let mac := macResult s.mac seqNum (pre ++ (packet ++ pad))
    -- the three pieces are encrypted one after the other
    let c₁ := s.cipher.skip pre.length
    let c₂ := c₁.skip packet.length
    .ok (s.cipher.xor pre ++ (c₁.xor packet ++ (c₂.xor pad ++ mac)))
      { s with cipher := c₂.skip pad.length }

/-- `readPacket`, `none` where it waits. -/
def readPacket (s : StreamPacketCipher) (seqNum : UInt32) (r : Bytes) :
    Option (ReadEnd StreamPacketCipher) :=
  if r.length < prefixLen then none
  else
    let pre := s.cipher.xor (r.take prefixLen)
    let length := BigEndian.toNat (pre.take 4)
    let paddingLength := (pre.getD 4 0).toNat
    if length ≤ paddingLength + 1 then
      some (.error "ssh: invalid packet length, packet too small".toList)
    else if maxPacket < length then
      some (.error "ssh: invalid packet length, packet too large".toList)
    else
      let body := r.drop prefixLen
      if body.length < length - 1 + macSize s.mac then none
      else
        let mac := (body.drop (length - 1)).take (macSize s.mac)
        let data := (s.cipher.skip prefixLen).xor (body.take (length - 1))
        if macResult s.mac seqNum (pre ++ data) ≠ mac then some (.error "ssh: MAC failure".toList)
        else
          some (.ok (data.take (length - paddingLength - 1)) (body.drop (length - 1 + macSize s.mac))
            { s with cipher := s.cipher.skip (prefixLen + (length - 1)) })

/-- A packet with its padding, as it looks on the wire. -/
def frame (s : StreamPacketCipher) (seqNum : UInt32) (packet pad : Bytes) : Bytes :=
  let pre := header (packet.length + 1 + pad.length) pad.length
  s.cipher.xor (pre ++ (packet ++ pad)) ++ macResult s.mac seqNum (pre ++ (packet ++ pad))

/-- The cipher behind `n` bytes of payload and padding. -/
def next (s : StreamPacketCipher) (n : ℕ) : StreamPacketCipher :=
  { s with cipher := s.cipher.skip (prefixLen + n) }

/-- **What is written is a frame.** -/
theorem writePacket_eq (s : StreamPacketCipher) (seqNum : UInt32) (rand : ℕ → UInt8)
    {packet : Bytes} (h : packet.length ≤ maxPacket) :
    s.writePacket seqNum rand packet
      = .ok (s.frame seqNum packet (padding rand (paddingTo (prefixLen + packet.length))))
          (s.next (packet.length + paddingTo (prefixLen + packet.length))) := by
  rw [writePacket, if_neg (Nat.not_lt.mpr h), frame, next]
  simp only [length_header, length_padding, KeyStream.xor_append, KeyStream.skip_skip,
    List.append_assoc, Nat.add_assoc]

/-- The payload and the padding of a packet of length `n`. -/
theorem frame_of_data (s : StreamPacketCipher) (seqNum : UInt32) {data : Bytes} {n k : ℕ}
    (hk : k + 1 < n) (hdata : data.length = n - 1) :
    s.frame seqNum (data.take (n - k - 1)) (data.drop (n - k - 1))
      = s.cipher.xor (header n k) ++ ((s.cipher.skip prefixLen).xor data
        ++ macResult s.mac seqNum (header n k ++ data)) := by
  have hp : (data.take (n - k - 1)).length = n - k - 1 := by
    rw [List.length_take_of_le (by omega)]
  have hpad : (data.drop (n - k - 1)).length = k := by
    rw [List.length_drop]
    omega
  have hn : n - k - 1 + 1 + k = n := by omega
  rw [frame, hp, hpad, hn, List.take_append_drop, KeyStream.xor_append, length_header,
    List.append_assoc]

/-- **What a stream cipher accepts**: a packet that is not empty and not too
large, with any padding whose length fits in a byte. -/
theorem readPacket_eq_ok_iff (s : StreamPacketCipher) (seqNum : UInt32) (r p rest : Bytes)
    (s' : StreamPacketCipher) :
    s.readPacket seqNum r = some (.ok p rest s') ↔
      ∃ pad : Bytes, pad.length < 256 ∧ p ≠ [] ∧ p.length + 1 + pad.length ≤ maxPacket
        ∧ r = s.frame seqNum p pad ++ rest ∧ s' = s.next (p.length + pad.length) := by
  constructor
  · intro h
    rw [readPacket] at h
    split at h
    · cases h
    rename_i hlen
    have hpre : (s.cipher.xor (r.take prefixLen)).length = prefixLen := by
      rw [KeyStream.length_xor, List.length_take_of_le (Nat.le_of_not_lt hlen)]
    have hhead := eq_header hpre
    have hr : r = s.cipher.xor (s.cipher.xor (r.take prefixLen)) ++ r.drop prefixLen := by
      rw [KeyStream.xor_xor, List.take_append_drop]
    simp only [] at h
    generalize s.cipher.xor (r.take prefixLen) = pre at h hhead hr
    generalize hn : BigEndian.toNat (pre.take 4) = n at h hhead
    generalize hk : (pre.getD 4 0).toNat = k at h hhead
    have hk' : k < 256 := by
      rw [← hk]
      exact UInt8.toNat_lt _
    generalize r.drop prefixLen = body at h hr
    split at h
    · cases h
    rename_i hsmall
    split at h
    · cases h
    rename_i hlarge
    split at h
    · cases h
    rename_i hbody
    have hdata : ((s.cipher.skip prefixLen).xor (body.take (n - 1))).length = n - 1 := by
      rw [KeyStream.length_xor, List.length_take_of_le (by omega)]
    have hb : body = (s.cipher.skip prefixLen).xor ((s.cipher.skip prefixLen).xor
        (body.take (n - 1))) ++ ((body.drop (n - 1)).take (macSize s.mac)
          ++ body.drop (n - 1 + macSize s.mac)) := by
      rw [KeyStream.xor_xor, ← List.drop_drop, List.take_append_drop, List.take_append_drop]
    generalize (s.cipher.skip prefixLen).xor (body.take (n - 1)) = data at h hdata hb
    split at h
    · cases h
    rename_i hmac
    obtain ⟨rfl, rfl, rfl⟩ := ReadEnd.ok.inj (Option.some.inj h)
    have hpad : (data.drop (n - k - 1)).length = k := by
      rw [List.length_drop]
      omega
    have hp : (data.take (n - k - 1)).length = n - k - 1 := by
      rw [List.length_take_of_le (by omega)]
    refine ⟨data.drop (n - k - 1), by omega, fun hnil => ?_, by omega, ?_, ?_⟩
    · rw [hnil, List.length_nil] at hp
      omega
    · rw [frame_of_data s seqNum (Nat.lt_of_not_le hsmall) hdata, ← hhead, not_not.mp hmac]
      conv_lhs => rw [hr, hb]
      simp only [List.append_assoc]
    · rw [next, hp, hpad, show n - k - 1 + k = n - 1 by omega]
  · rintro ⟨pad, hpad, hp, hmax, rfl, rfl⟩
    have hp₁ : 1 ≤ p.length := List.length_pos_iff.mpr hp
    have hmax₂ : p.length + 1 + pad.length < 2 ^ 32 := lt_of_le_of_lt hmax (by decide)
    obtain ⟨hn, hk⟩ := header_spec hmax₂ hpad
    have hframe : s.frame seqNum p pad ++ rest
        = s.cipher.xor (header (p.length + 1 + pad.length) pad.length)
          ++ ((s.cipher.skip prefixLen).xor (p ++ pad)
            ++ (macResult s.mac seqNum (header (p.length + 1 + pad.length) pad.length ++ (p ++ pad))
              ++ rest)) := by
      rw [frame, KeyStream.xor_append, length_header]
      simp only [List.append_assoc]
    rw [hframe, readPacket]
    generalize hpre : header (p.length + 1 + pad.length) pad.length = pre at hn hk
    have hlen : (s.cipher.xor pre).length = prefixLen := by
      rw [KeyStream.length_xor, ← hpre, length_header]
    have hdata : ((s.cipher.skip prefixLen).xor (p ++ pad)).length = p.length + 1 + pad.length - 1 := by
      rw [KeyStream.length_xor, List.length_append]
      omega
    have hmac := length_macResult s.mac seqNum (pre ++ (p ++ pad))
    rw [if_neg (by rw [List.length_append, hlen]; omega), List.take_left' hlen,
      List.drop_left' hlen, KeyStream.xor_xor]
    simp only [hn, hk]
    rw [if_neg (by omega), if_neg (by omega),
      if_neg (by rw [List.length_append, List.length_append, hdata, hmac]; omega),
      List.take_left' hdata, KeyStream.xor_xor, List.drop_left' hdata, List.take_left' hmac,
      if_neg (fun h => h rfl), ← List.drop_drop, List.drop_left' hdata, List.drop_left' hmac,
      List.take_left' (by omega)]
    rw [next, show p.length + 1 + pad.length - 1 = p.length + pad.length by omega]

/-- The header is the first thing on the wire. -/
theorem xor_take_frame (s : StreamPacketCipher) (seqNum : UInt32) (p pad rest : Bytes) :
    s.cipher.xor ((s.frame seqNum p pad ++ rest).take prefixLen)
      = header (p.length + 1 + pad.length) pad.length := by
  rw [frame, KeyStream.xor_append, List.append_assoc, List.append_assoc,
    List.take_left' (by rw [KeyStream.length_xor, length_header]), KeyStream.xor_xor]

theorem length_frame (s : StreamPacketCipher) (seqNum : UInt32) (p pad : Bytes) :
    (s.frame seqNum p pad).length = prefixLen + (p.length + pad.length) + macSize s.mac := by
  rw [frame, List.length_append, KeyStream.length_xor, length_macResult, List.length_append,
    length_header, List.length_append]

end StreamPacketCipher

/-! ## AES-GCM -/

/-- `gcmTagSize`. -/
def gcmTagSize : ℕ := 16

/-- **`gcmCipher`.** -/
structure GcmCipher where
  aead : Aead gcmTagSize
  iv : Bytes

namespace GcmCipher

/-- The loop of `incIV`, at the byte `4 + n - 1`. -/
def incFrom (iv : Bytes) : ℕ → Bytes
  | 0 => iv
  | n + 1 =>
    let iv := iv.set (4 + n) (iv.getD (4 + n) 0 + 1)
    if iv.getD (4 + n) 0 ≠ 0 then iv else incFrom iv n

/-- `incIV`: the last eight bytes are a counter. -/
def incIV (iv : Bytes) : Bytes := incFrom iv 8

/-- The plain text of a packet with its padding. -/
def plain (packet pad : Bytes) : Bytes := UInt8.ofNat pad.length :: (packet ++ pad)

/-- `writePacket`. The length is cut to 32 bits, and a buffer of that length
is then filled. -/
def writePacket (c : GcmCipher) (rand : ℕ → UInt8) (packet : Bytes) : WriteEnd GcmCipher :=
  let paddingLength := paddingTo (1 + packet.length)
  if 2 ^ 32 ≤ packet.length + paddingLength + 1 then .crash
  else
    let pre := putUint32 (packet.length + paddingLength + 1)
    let buf := plain packet (padding rand paddingLength)
    .ok (pre ++ c.aead.encrypt c.iv buf pre) { c with iv := incIV c.iv }

/-- `readPacket`, `none` where it waits. -/
def readPacket (c : GcmCipher) (r : Bytes) : Option (ReadEnd GcmCipher) :=
  if r.length < 4 then none
  else
    let pre := r.take 4
    let length := BigEndian.toNat pre
    if maxPacket < length then some (.error "ssh: max packet length exceeded.".toList)
    else
      let body := r.drop 4
      if body.length < length + gcmTagSize then none
      else
        match c.aead.decrypt c.iv (body.take (length + gcmTagSize)) pre with
        | none => some (.error "cipher: message authentication failed".toList)
        -- a packet of length zero is opened, and then read
        | some [] => some .crash
        | some (pad :: plain) =>
          if pad.toNat < 4 ∨ 20 ≤ pad.toNat then
            some (.error ("ssh: illegal padding ".toList ++ showNat pad.toNat))
          else if (pad :: plain).length ≤ pad.toNat + 1 then
            some (.error ("ssh: padding ".toList ++ showNat pad.toNat ++ " too large".toList))
          else
            some (.ok (plain.take (length - pad.toNat - 1)) (body.drop (length + gcmTagSize))
              { c with iv := incIV c.iv })

/-- A packet with its padding, as it looks on the wire. -/
def frame (c : GcmCipher) (packet pad : Bytes) : Bytes :=
  let pre := putUint32 (packet.length + pad.length + 1)
  pre ++ c.aead.encrypt c.iv (plain packet pad) pre

/-- The cipher for the next packet. -/
def next (c : GcmCipher) : GcmCipher := { c with iv := incIV c.iv }

theorem length_plain (packet pad : Bytes) :
    (plain packet pad).length = packet.length + pad.length + 1 := by
  rw [plain, List.length_cons, List.length_append]

theorem length_frame (c : GcmCipher) (packet pad : Bytes) :
    (c.frame packet pad).length = 4 + (packet.length + pad.length + 1 + gcmTagSize) := by
  rw [frame, List.length_append, length_putUint32, c.aead.length_encrypt, length_plain]

/-- **What is written is a frame.** -/
theorem writePacket_eq (c : GcmCipher) (rand : ℕ → UInt8) {packet : Bytes}
    (h : packet.length + paddingTo (1 + packet.length) + 1 < 2 ^ 32) :
    c.writePacket rand packet
      = .ok (c.frame packet (padding rand (paddingTo (1 + packet.length)))) c.next := by
  rw [writePacket]
  simp only []
  rw [if_neg (Nat.not_le.mpr h), frame, length_padding]
  rfl

/-- **What AES-GCM accepts**: a packet that is not empty and not too large,
with any padding of four to nineteen bytes. -/
theorem readPacket_eq_ok_iff (c : GcmCipher) (r p rest : Bytes) (c' : GcmCipher) :
    c.readPacket r = some (.ok p rest c') ↔
      ∃ pad : Bytes, (4 ≤ pad.length ∧ pad.length < 20) ∧ p ≠ []
        ∧ p.length + 1 + pad.length ≤ maxPacket
        ∧ r = c.frame p pad ++ rest ∧ c' = c.next := by
  constructor
  · intro h
    rw [readPacket] at h
    split at h
    · cases h
    rename_i hlen
    have hpre : (r.take 4).length = 4 := List.length_take_of_le (Nat.le_of_not_lt hlen)
    have hr : r = r.take 4 ++ r.drop 4 := (List.take_append_drop 4 r).symm
    simp only [] at h
    generalize r.take 4 = pre at h hpre hr
    generalize r.drop 4 = body at h hr
    have hput := putUint32_toNat hpre
    generalize BigEndian.toNat pre = n at h hput
    split at h
    · cases h
    rename_i hlarge
    split at h
    · cases h
    rename_i hbody
    have hb : body = body.take (n + gcmTagSize) ++ body.drop (n + gcmTagSize) :=
      (List.take_append_drop _ body).symm
    have hsealed : (body.take (n + gcmTagSize)).length = n + gcmTagSize :=
      List.length_take_of_le (Nat.le_of_not_lt hbody)
    generalize body.take (n + gcmTagSize) = sealed at h hb hsealed
    split at h
    · cases h
    · cases h
    rename_i pad text hdec
    rw [c.aead.decrypt_eq_some_iff] at hdec
    have htext : (pad :: text).length = n := by
      have hl := c.aead.length_encrypt c.iv (pad :: text) pre
      rw [← hdec, hsealed] at hl
      omega
    rw [List.length_cons] at htext
    split at h
    · cases h
    rename_i hillegal
    split at h
    · cases h
    rename_i htoo
    obtain ⟨rfl, rfl, rfl⟩ := ReadEnd.ok.inj (Option.some.inj h)
    rw [List.length_cons] at htoo
    have hp : (text.take (n - pad.toNat - 1)).length = n - pad.toNat - 1 :=
      List.length_take_of_le (by omega)
    have hpad : (text.drop (n - pad.toNat - 1)).length = pad.toNat := by
      rw [List.length_drop]
      omega
    refine ⟨text.drop (n - pad.toNat - 1), by omega, fun hnil => ?_, by omega, ?_, rfl⟩
    · rw [hnil, List.length_nil] at hp
      omega
    · have hn : n - pad.toNat - 1 + pad.toNat + 1 = n := by omega
      rw [frame, plain, hp, hpad, hn, List.take_append_drop, UInt8.ofNat_toNat, hput, ← hdec]
      conv_lhs => rw [hr, hb]
      exact (List.append_assoc _ _ _).symm
  · rintro ⟨pad, ⟨hpad₄, hpad₂₀⟩, hp, hmax, rfl, rfl⟩
    have hp₁ : 1 ≤ p.length := List.length_pos_iff.mpr hp
    have hmax₂ : maxPacket < 2 ^ 32 := by decide
    have hn := toNat_putUint32 (n := p.length + pad.length + 1) (by omega)
    have hpre := length_putUint32 (p.length + pad.length + 1)
    rw [frame, List.append_assoc, readPacket]
    generalize putUint32 (p.length + pad.length + 1) = pre at hn hpre ⊢
    have hsealed : (c.aead.encrypt c.iv (plain p pad) pre).length
        = p.length + pad.length + 1 + gcmTagSize := by
      rw [c.aead.length_encrypt, length_plain]
    rw [if_neg (by rw [List.length_append]; omega), List.take_left' hpre, List.drop_left' hpre]
    simp only [hn]
    rw [if_neg (by omega), if_neg (by rw [List.length_append]; omega), List.take_left' hsealed,
      List.drop_left' hsealed, (c.aead.decrypt_eq_some_iff _ _ _ _).mpr rfl, plain]
    have hnat : (UInt8.ofNat pad.length).toNat = pad.length :=
      UInt8.toNat_ofNat_of_lt' (by show _ < 256; omega)
    simp only [hnat]
    rw [if_neg (by omega),
      if_neg (by rw [List.length_cons, List.length_append]; omega), List.take_left' (by omega)]
    rfl

/-- The lengths on the wire: that of the whole stands in the clear, that of
the padding is the first byte of the plain text. -/
theorem frame_append_inj (c : GcmCipher) {p pad q pad' rest rest' : Bytes}
    (hp : p.length + 1 + pad.length < 2 ^ 32) (hpad : pad.length < 256)
    (hq : q.length + 1 + pad'.length < 2 ^ 32) (hpad' : pad'.length < 256)
    (h : c.frame p pad ++ rest = c.frame q pad' ++ rest') :
    p.length + 1 + pad.length = q.length + 1 + pad'.length ∧ pad.length = pad'.length := by
  rw [frame, frame, List.append_assoc, List.append_assoc] at h
  obtain ⟨hpre, hbody⟩ := List.append_inj h (by rw [length_putUint32, length_putUint32])
  have hlen : p.length + pad.length + 1 = q.length + pad'.length + 1 := by
    rw [← toNat_putUint32 (n := p.length + pad.length + 1) (by omega), hpre,
      toNat_putUint32 (by omega)]
  obtain ⟨hsealed, -⟩ := List.append_inj hbody (by
    rw [c.aead.length_encrypt, c.aead.length_encrypt, length_plain, length_plain, hlen])
  rw [hpre] at hsealed
  have hplain : plain p pad = plain q pad' := by
    have hopen := (c.aead.decrypt_eq_some_iff c.iv _ _ (plain p pad)).mpr hsealed.symm
    rw [(c.aead.decrypt_eq_some_iff _ _ _ (plain q pad')).mpr rfl] at hopen
    exact (Option.some.inj hopen).symm
  have hbyte := congrArg UInt8.toNat (List.cons.inj hplain).1
  rw [UInt8.toNat_ofNat_of_lt' hpad, UInt8.toNat_ofNat_of_lt' hpad'] at hbyte
  exact ⟨by omega, hbyte⟩

/-! ### Nonces -/

/-- The byte behind a piece. -/
theorem getD_append_cons (a d : Bytes) (x : UInt8) : (a ++ x :: d).getD a.length 0 = x := by
  rw [List.getD_eq_getElem?_getD, List.getElem?_append_right (Nat.le_refl _), Nat.sub_self]
  rfl

theorem set_append_cons (a d : Bytes) (x y : UInt8) :
    (a ++ x :: d).set a.length y = a ++ y :: d := by
  rw [List.set_append_right _ _ (Nat.le_refl _), Nat.sub_self]
  rfl

/-- **The loop adds one** to the bytes it may reach. -/
theorem incFrom_spec (a d c : Bytes) (ha : a.length = 4) :
    ∃ c', incFrom (a ++ (c ++ d)) c.length = a ++ (c' ++ d) ∧ c'.length = c.length
      ∧ BigEndian.toNat c' = (BigEndian.toNat c + 1) % 256 ^ c.length := by
  induction c using List.reverseRecOn generalizing d with
  | nil => exact ⟨[], rfl, rfl, rfl⟩
  | append_singleton c x ih =>
    have hlen : (c ++ [x]).length = c.length + 1 := by
      rw [List.length_append]
      rfl
    have hsplit : ∀ y, a ++ ((c ++ [y]) ++ d) = (a ++ c) ++ y :: d := by
      intro y
      simp only [List.append_assoc, List.singleton_append]
    have hpos : 4 + c.length = (a ++ c).length := by rw [List.length_append, ha]
    have hlt := BigEndian.toNat_lt c
    rw [hlen, incFrom, hsplit, hpos, getD_append_cons]
    rw [set_append_cons, getD_append_cons, BigEndian.toNat_concat, pow_succ]
    split
    · -- no carry
      rename_i hx
      have hx' : x.toNat + 1 < 256 := by
        have := x.toNat_lt
        rcases Nat.lt_or_ge (x.toNat + 1) 256 with h | h
        · exact h
        · refine absurd (UInt8.toNat_inj.mp ?_) hx
          rw [UInt8.toNat_add]
          have h256 : x.toNat + 1 = 256 := by omega
          show (x.toNat + 1) % 256 = 0
          rw [h256]
      refine ⟨c ++ [x + 1], (hsplit (x + 1)).symm, by rw [List.length_append]; rfl, ?_⟩
      have hsucc : (x + 1).toNat = x.toNat + 1 := by
        rw [UInt8.toNat_add]
        exact Nat.mod_eq_of_lt hx'
      rw [BigEndian.toNat_concat, hsucc, Nat.mod_eq_of_lt]
      · exact (Nat.add_assoc _ _ _).symm
      · have := Nat.mul_le_mul_right 256 (Nat.succ_le_of_lt hlt)
        rw [Nat.succ_mul] at this
        omega
    · -- the byte becomes zero and the loop goes on
      rename_i hx
      have hx₀ : x + 1 = 0 := not_not.mp hx
      have hx' : x.toNat = 255 := by
        have h₀ : (x + 1).toNat = 0 := by rw [hx₀]; rfl
        rw [UInt8.toNat_add] at h₀
        have h₁ : (x.toNat + 1) % 256 = 0 := h₀
        have := x.toNat_lt
        omega
      obtain ⟨c', hinc, hc', hnat⟩ := ih (0 :: d)
      rw [hx₀, List.append_assoc, hinc]
      refine ⟨c' ++ [0], by simp only [List.append_assoc, List.singleton_append],
        by rw [List.length_append, hc']; rfl, ?_⟩
      rw [BigEndian.toNat_concat, hnat, hx', Nat.add_assoc,
        show BigEndian.toNat c * 256 + (255 + 1) = (BigEndian.toNat c + 1) * 256 by omega,
        Nat.mul_mod_mul_right]
      exact Nat.add_zero _

/-- What the nonce is after `n` packets. -/
theorem iterate_incIV (iv : Bytes) (h : iv.length = 12) (n : ℕ) :
    (incIV^[n] iv).length = 12 ∧ BigEndian.toNat ((incIV^[n] iv).drop 4)
      = (BigEndian.toNat (iv.drop 4) + n) % 256 ^ 8 := by
  induction n with
  | zero =>
    refine ⟨h, (Nat.mod_eq_of_lt ?_).symm⟩
    have := BigEndian.toNat_lt (iv.drop 4)
    rw [List.length_drop, h] at this
    exact this
  | succ n ih =>
    obtain ⟨hlen, hnat⟩ := ih
    rw [Function.iterate_succ_apply']
    generalize incIV^[n] iv = v at hlen hnat
    have ha : (v.take 4).length = 4 := by rw [List.length_take_of_le (by omega)]
    have hc : (v.drop 4).length = 8 := by rw [List.length_drop, hlen]
    obtain ⟨c', hinc, hc', hnat'⟩ := incFrom_spec (v.take 4) [] (v.drop 4) ha
    rw [List.append_nil, List.append_nil, List.take_append_drop, hc] at hinc
    rw [incIV, hinc, List.drop_left' ha, hnat', hnat, hc, Nat.mod_add_mod]
    refine ⟨?_, rfl⟩
    rw [List.length_append, ha, hc', hc]

/-- The nonces under which some packets are written, one after the other. -/
def nonces (c : GcmCipher) : List ((ℕ → UInt8) × Bytes) → List Bytes
  | [] => []
  | (rand, packet) :: packets =>
    match c.writePacket rand packet with
    | .ok _ c' => c.iv :: c'.nonces packets
    | _ => []

theorem nonces_eq (c : GcmCipher) (packets : List ((ℕ → UInt8) × Bytes)) :
    ∃ k ≤ packets.length, c.nonces packets = (List.range k).map (fun n => incIV^[n] c.iv) := by
  induction packets generalizing c with
  | nil => exact ⟨0, Nat.le_refl 0, rfl⟩
  | cons x packets ih =>
    obtain ⟨rand, packet⟩ := x
    rw [nonces]
    by_cases hfit : packet.length + paddingTo (1 + packet.length) + 1 < 2 ^ 32
    · rw [writePacket_eq c rand hfit]
      obtain ⟨k, hk, heq⟩ := ih c.next
      refine ⟨k + 1, Nat.succ_le_succ hk, ?_⟩
      show c.iv :: c.next.nonces packets = _
      rw [heq, List.range_succ_eq_map, List.map_cons, List.map_map]
      rfl
    · rw [writePacket, if_pos (Nat.le_of_not_lt hfit)]
      exact ⟨0, Nat.zero_le _, rfl⟩

end GcmCipher

/-- **No nonce is used twice.** Under one key, whatever the packets are, up to
`2 ^ 64` of them are sealed with nonces that all differ. -/
theorem gcm_nonces (c : GcmCipher) (hiv : c.iv.length = 12)
    (packets : List ((ℕ → UInt8) × Bytes)) (hlen : packets.length ≤ 2 ^ 64) :
    (c.nonces packets).Nodup := by
  obtain ⟨k, hk, heq⟩ := c.nonces_eq packets
  rw [heq]
  refine List.Nodup.map_on (fun m hm n hn hmn => ?_) List.nodup_range
  have hm' := List.mem_range.mp hm
  have hn' := List.mem_range.mp hn
  have hm₁ := (GcmCipher.iterate_incIV c.iv hiv m).2
  have hn₁ := (GcmCipher.iterate_incIV c.iv hiv n).2
  rw [hmn, hn₁] at hm₁
  have h256 : (256 : ℕ) ^ 8 = 2 ^ 64 := by decide
  rw [h256] at hm₁
  omega

/-- A cipher that only adds sixteen zeros. -/
def plainAead : Aead gcmTagSize where
  encrypt _ p _ := p ++ List.replicate 16 0
  decrypt _ c _ :=
    if c.drop (c.length - 16) = List.replicate 16 0 then some (c.take (c.length - 16)) else none
  length_encrypt _ p _ := by
    rw [List.length_append, List.length_replicate]
    rfl
  decrypt_eq_some_iff _ c _ p := by
    constructor
    · intro h
      split at h
      · rename_i hz
        obtain rfl := Option.some.inj h
        rw [← hz, List.take_append_drop]
      · cases h
    · rintro rfl
      have hlen : (p ++ List.replicate 16 (0 : UInt8)).length - 16 = p.length := by
        rw [List.length_append, List.length_replicate]
        omega
      rw [hlen, List.drop_left, if_pos rfl, List.take_left]

theorem gcm_nonces_carry :
    (⟨plainAead, [0, 0, 0, 0, 0, 0, 0, 0, 0, 0, 1, 255]⟩ : GcmCipher).nonces
        [(fun _ => 0, [5]), (fun _ => 0, [6])]
      = [[0, 0, 0, 0, 0, 0, 0, 0, 0, 0, 1, 255], [0, 0, 0, 0, 0, 0, 0, 0, 0, 0, 2, 0]]
    ∧ ((⟨plainAead, [0, 0, 0, 0, 0, 0, 0, 0, 0, 0, 1, 255]⟩ : GcmCipher).nonces
        [(fun _ => 0, [5]), (fun _ => 0, [6])]).Nodup :=
  ⟨by rfl, gcm_nonces _ rfl _ (by decide)⟩

/-! ## AES in CBC mode -/

/-- `aes.BlockSize`. -/
def aesBlockSize : ℕ := 16

/-- **`cbcCipher`.** -/
structure CbcCipher where
  mac : Option Mac
  mode : BlockMode aesBlockSize
  iv : Bytes
  /-- No hash of the library is longer. -/
  macSize_le : macSize mac ≤ 32

namespace CbcCipher

/-- The constants of the source; the block of AES is not smaller than any of
them. -/
def cbcMinPacketSizeMultiple : ℕ := 8
def cbcMinPacketSize : ℕ := 16
def cbcMinPaddingSize : ℕ := 4

/-- The length of the encrypted part of a packet with `n` bytes. -/
def encLength (n : ℕ) : ℕ :=
  let effectiveBlockSize := max cbcMinPacketSizeMultiple aesBlockSize
  let encLength := max (prefixLen + n + cbcMinPaddingSize) cbcMinPaddingSize
  (encLength + effectiveBlockSize - 1) / effectiveBlockSize * effectiveBlockSize

/-- The padding of a packet with `n` bytes. -/
def paddingLength (n : ℕ) : ℕ := encLength n - 4 - (1 + n)

/-- A packet with its padding, before it is encrypted. -/
def plain (packet pad : Bytes) : Bytes :=
  header (packet.length + 1 + pad.length) pad.length ++ (packet ++ pad)

/-- `writePacket`. Lengths are computed in 32 bits, and the buffer is then
filled. -/
def writePacket (c : CbcCipher) (seqNum : UInt32) (rand : ℕ → UInt8) (packet : Bytes) :
    WriteEnd CbcCipher :=
  if 2 ^ 32 ≤ encLength packet.length + macSize c.mac then .crash
  else
    let length := encLength packet.length - 4
    let data := header length (paddingLength packet.length)
      ++ (packet ++ padding rand (paddingLength packet.length))
    let sealed := c.mode.encrypt c.iv data
    .ok (sealed.1 ++ macResult c.mac seqNum data) { c with iv := sealed.2 }

/-- A verification error: `n` more bytes are read before it is reported. -/
def cbcError (msg : String) (r : Bytes) (n : ℕ) : Option (ReadEnd CbcCipher) :=
  if r.length < n then none else some (.error msg.toList)

/-- `readPacket`, `none` where it waits. -/
def readPacket (c : CbcCipher) (seqNum : UInt32) (r : Bytes) : Option (ReadEnd CbcCipher) :=
  let firstBlockLength := (prefixLen + aesBlockSize - 1) / aesBlockSize * aesBlockSize
  if r.length < firstBlockLength then none
  else
    let oracleCamouflage := maxPacket + 4 + macSize c.mac - firstBlockLength
    let first := c.mode.decrypt c.iv (r.take firstBlockLength)
    let body := r.drop firstBlockLength
    let length := BigEndian.toNat (first.1.take 4)
    let paddingLength := (first.1.getD 4 0).toNat
    if maxPacket < length then cbcError "ssh: packet too large" body oracleCamouflage
    else if length + 4 < max cbcMinPacketSize aesBlockSize then
      cbcError "ssh: packet too small" body oracleCamouflage
    else if (length + 4) % max cbcMinPacketSizeMultiple aesBlockSize ≠ 0 then
      cbcError "ssh: invalid packet length multiple" body oracleCamouflage
    else if paddingLength < cbcMinPaddingSize ∨ length ≤ paddingLength + 1 then
      cbcError "ssh: invalid packet length" body oracleCamouflage
    else
      let remaining := 4 + length - firstBlockLength
      if body.length < remaining + macSize c.mac then none
      else
        let second := c.mode.decrypt first.2 (body.take remaining)
        let data := first.1 ++ second.1
        let mac := (body.drop remaining).take (macSize c.mac)
        let rest := body.drop (remaining + macSize c.mac)
        if macResult c.mac seqNum data ≠ mac then
          cbcError "ssh: MAC failure" rest (oracleCamouflage - (remaining + macSize c.mac))
        else
          some (.ok ((data.drop prefixLen).take (4 + length - paddingLength - prefixLen)) rest
            { c with iv := second.2 })

/-- A packet with its padding, as it looks on the wire. -/
def frame (c : CbcCipher) (seqNum : UInt32) (packet pad : Bytes) : Bytes :=
  (c.mode.encrypt c.iv (plain packet pad)).1 ++ macResult c.mac seqNum (plain packet pad)

/-- The cipher behind a packet. -/
def next (c : CbcCipher) (packet pad : Bytes) : CbcCipher :=
  { c with iv := (c.mode.encrypt c.iv (plain packet pad)).2 }

/-- The padding fills a packet to whole blocks. -/
theorem paddingLength_spec (n : ℕ) :
    4 ≤ paddingLength n ∧ paddingLength n < 20 ∧ encLength n = prefixLen + (n + paddingLength n)
      ∧ 16 ∣ prefixLen + (n + paddingLength n) := by
  have henc : encLength n = (n + 24) / 16 * 16 := by
    show (max (5 + n + 4) 4 + 16 - 1) / 16 * 16 = _
    rw [max_eq_left (by omega), show 5 + n + 4 + 16 - 1 = n + 24 by omega]
  rw [paddingLength, henc]
  show _ ∧ _ ∧ _ = 5 + _ ∧ 16 ∣ 5 + _
  omega

theorem length_plain (packet pad : Bytes) :
    (plain packet pad).length = prefixLen + (packet.length + pad.length) := by
  rw [plain, List.length_append, length_header, List.length_append]

/-- **What is written is a frame.** -/
theorem writePacket_eq (c : CbcCipher) (seqNum : UInt32) (rand : ℕ → UInt8) {packet : Bytes}
    (h : encLength packet.length + macSize c.mac < 2 ^ 32) :
    c.writePacket seqNum rand packet
      = .ok (c.frame seqNum packet (padding rand (paddingLength packet.length)))
          (c.next packet (padding rand (paddingLength packet.length))) := by
  have hlen : encLength packet.length - 4 = packet.length + 1 + paddingLength packet.length := by
    rw [(paddingLength_spec packet.length).2.2.1]
    show 5 + _ - 4 = _
    omega
  rw [writePacket, if_neg (Nat.not_le.mpr h), frame, next, plain, length_padding, hlen]

theorem length_frame (c : CbcCipher) (seqNum : UInt32) (p pad : Bytes)
    (h : 16 ∣ prefixLen + (p.length + pad.length)) :
    (c.frame seqNum p pad).length
      = prefixLen + (p.length + pad.length) + macSize c.mac := by
  rw [frame, List.length_append, length_macResult,
    c.mode.length_encrypt _ _ (by rw [length_plain]; exact h), length_plain]

/-- The header is in the first block. -/
theorem decrypt_take_frame (c : CbcCipher) (seqNum : UInt32) (p pad rest : Bytes)
    (hpad : 4 ≤ pad.length) (h : 16 ∣ prefixLen + (p.length + pad.length)) :
    (c.mode.decrypt c.iv ((c.frame seqNum p pad ++ rest).take 16)).1.take prefixLen
      = header (p.length + 1 + pad.length) pad.length := by
  have hplain : aesBlockSize ∣ (plain p pad).length := by
    rw [length_plain]
    exact h
  have hct := c.mode.length_encrypt c.iv _ hplain
  have hdec := c.mode.decrypt_encrypt c.iv (plain p pad) hplain
  have hlen := length_plain p pad
  rw [show prefixLen = 5 from rfl] at h hlen
  rw [frame, List.append_assoc, List.take_append_of_le_length (by omega)]
  generalize c.mode.encrypt c.iv (plain p pad) = E at hct hdec
  have ha : (E.1.take 16).length = 16 := List.length_take_of_le (by omega)
  have ha' : aesBlockSize ∣ (E.1.take 16).length := by
    rw [ha]
    exact Nat.dvd_refl 16
  have hb' : aesBlockSize ∣ (E.1.drop 16).length := by
    rw [List.length_drop, hct, hlen]
    show 16 ∣ _
    omega
  rw [← List.take_append_drop 16 E.1, c.mode.decrypt_append _ _ _ ha' hb'] at hdec
  have hfirst := congrArg (List.take prefixLen) (Prod.mk.inj hdec).1
  rw [List.take_append_of_le_length (by rw [c.mode.length_decrypt _ _ ha', ha]; decide), plain,
    List.take_left' (length_header _ _)] at hfirst
  exact hfirst

/-- A verification error is no packet. -/
theorem cbcError_ne_ok {msg : String} {r p rest : Bytes} {n : ℕ} {c : CbcCipher} :
    cbcError msg r n ≠ some (.ok p rest c) := by
  rw [cbcError]
  split <;> nofun

/-- **What CBC accepts**: a packet that is not empty and not too large, with a
padding of at least four bytes that fills it to whole blocks. -/
theorem readPacket_eq_ok_iff (c : CbcCipher) (seqNum : UInt32) (r p rest : Bytes)
    (c' : CbcCipher) :
    c.readPacket seqNum r = some (.ok p rest c') ↔
      ∃ pad : Bytes, (4 ≤ pad.length ∧ pad.length < 256
          ∧ 16 ∣ prefixLen + (p.length + pad.length)) ∧ p ≠ []
        ∧ p.length + 1 + pad.length ≤ maxPacket
        ∧ r = c.frame seqNum p pad ++ rest ∧ c' = c.next p pad := by
  have hfirst : (prefixLen + aesBlockSize - 1) / aesBlockSize * aesBlockSize = 16 := rfl
  have hmul : max cbcMinPacketSizeMultiple aesBlockSize = 16 := rfl
  have hmin : max cbcMinPacketSize aesBlockSize = 16 := rfl
  have hpad₄ : cbcMinPaddingSize = 4 := rfl
  have hpre₅ : prefixLen = 5 := rfl
  constructor
  · intro h
    rw [readPacket] at h
    simp only [hfirst, hmul, hmin, hpad₄] at h
    split at h
    · cases h
    rename_i hlen
    have ha : (r.take 16).length = 16 := List.length_take_of_le (Nat.le_of_not_lt hlen)
    have hr : r = r.take 16 ++ r.drop 16 := (List.take_append_drop 16 r).symm
    generalize r.take 16 = a at h ha hr
    generalize r.drop 16 = body at h hr
    have ha' : aesBlockSize ∣ a.length := ha ▸ Nat.dvd_refl 16
    have hD₁ : (c.mode.decrypt c.iv a).1.length = 16 := (c.mode.length_decrypt _ _ ha').trans ha
    have happ := fun b hb => c.mode.decrypt_append c.iv a b ha' hb
    generalize c.mode.decrypt c.iv a = D₁ at h hD₁ happ
    generalize hn : BigEndian.toNat (D₁.1.take 4) = n at h
    generalize hk : (D₁.1.getD 4 0).toNat = k at h
    have hk' : k < 256 := by
      rw [← hk]
      exact UInt8.toNat_lt _
    split at h
    · exact absurd h cbcError_ne_ok
    rename_i hlarge
    split at h
    · exact absurd h cbcError_ne_ok
    rename_i hsmall
    split at h
    · exact absurd h cbcError_ne_ok
    rename_i hmod
    split at h
    · exact absurd h cbcError_ne_ok
    rename_i hpad
    split at h
    · cases h
    rename_i hbody
    have hb : (body.take (4 + n - 16)).length = 4 + n - 16 := List.length_take_of_le (by omega)
    have hbody' : body = body.take (4 + n - 16) ++ ((body.drop (4 + n - 16)).take (macSize c.mac)
        ++ body.drop (4 + n - 16 + macSize c.mac)) := by
      rw [← List.drop_drop, List.take_append_drop, List.take_append_drop]
    generalize body.take (4 + n - 16) = b at h hb hbody'
    have hb' : aesBlockSize ∣ b.length := by
      rw [hb]
      show 16 ∣ _
      omega
    have hD₂ : (c.mode.decrypt D₁.2 b).1.length = 4 + n - 16 :=
      (c.mode.length_decrypt _ _ hb').trans hb
    have hdec := happ b hb'
    generalize c.mode.decrypt D₁.2 b = D₂ at h hD₂ hdec
    split at h
    · exact absurd h cbcError_ne_ok
    rename_i hmac
    obtain ⟨rfl, rfl, rfl⟩ := ReadEnd.ok.inj (Option.some.inj h)
    -- the plain text is a header, the packet and its padding
    have hdata : (D₁.1 ++ D₂.1).length = 4 + n := by
      rw [List.length_append, hD₁, hD₂]
      omega
    have htake : (D₁.1 ++ D₂.1).take prefixLen = header n k := by
      have htake₅ : (D₁.1 ++ D₂.1).take prefixLen = D₁.1.take 5 :=
        List.take_append_of_le_length (by rw [hD₁]; decide)
      have hlen₅ : (D₁.1.take 5).length = prefixLen := List.length_take_of_le (by omega)
      have h₄ : (D₁.1.take 5).take 4 = D₁.1.take 4 := by rw [List.take_take]; rfl
      have hget : (D₁.1.take 5).getD 4 0 = D₁.1.getD 4 0 := by
        rw [List.getD_eq_getElem?_getD, List.getD_eq_getElem?_getD,
          List.getElem?_take_of_lt (by decide)]
      rw [htake₅, eq_header hlen₅, h₄, hget, hn, hk]
    have hsplit : D₁.1 ++ D₂.1 = header n k ++ (D₁.1 ++ D₂.1).drop prefixLen := by
      rw [← htake, List.take_append_drop]
    have hdrop : ((D₁.1 ++ D₂.1).drop prefixLen).length = n - 1 := by
      rw [List.length_drop, hdata, hpre₅]
      omega
    have henc : c.mode.encrypt c.iv (D₁.1 ++ D₂.1) = (a ++ b, D₂.2) := by
      have := c.mode.encrypt_decrypt c.iv (a ++ b) (by
        rw [List.length_append]
        exact Nat.dvd_add ha' hb')
      rwa [hdec] at this
    generalize (D₁.1 ++ D₂.1).drop prefixLen = data at hsplit hdrop
    rw [hpre₅, show 4 + n - k - 5 = n - k - 1 by omega]
    have hp : (data.take (n - k - 1)).length = n - k - 1 := List.length_take_of_le (by omega)
    have hpadlen : (data.drop (n - k - 1)).length = k := by
      rw [List.length_drop]
      omega
    have hplain : plain (data.take (n - k - 1)) (data.drop (n - k - 1)) = D₁.1 ++ D₂.1 := by
      rw [plain, hp, hpadlen, List.take_append_drop, hsplit,
        show n - k - 1 + 1 + k = n by omega]
    refine ⟨data.drop (n - k - 1), ⟨by omega, by omega, by omega⟩, fun hnil => ?_, by omega, ?_, ?_⟩
    · rw [hnil, List.length_nil] at hp
      omega
    · rw [frame, hplain, henc, not_not.mp hmac]
      conv_lhs => rw [hr, hbody']
      simp only [List.append_assoc]
    · rw [next, hplain, henc]
  · rintro ⟨pad, ⟨hpad, hpad₂, hdvd⟩, hp, hmax, rfl, rfl⟩
    have hp₁ : 1 ≤ p.length := List.length_pos_iff.mpr hp
    have hmax₂ : p.length + 1 + pad.length < 2 ^ 32 := lt_of_le_of_lt hmax (by decide)
    obtain ⟨hn, hk⟩ := header_spec hmax₂ hpad₂
    have hlen := length_plain p pad
    have htake := c.decrypt_take_frame seqNum p pad [] hpad hdvd
    rw [hpre₅] at hlen hdvd htake
    have hplain : aesBlockSize ∣ (plain p pad).length := by
      rw [hlen]
      exact hdvd
    have hct : (c.mode.encrypt c.iv (plain p pad)).1.length = 5 + (p.length + pad.length) :=
      (c.mode.length_encrypt _ _ hplain).trans hlen
    have hdec := c.mode.decrypt_encrypt c.iv (plain p pad) hplain
    rw [frame, List.append_assoc, List.take_append_of_le_length (by omega)] at htake
    rw [frame, next]
    generalize c.mode.encrypt c.iv (plain p pad) = E at hct hdec htake
    -- the first block is decrypted apart
    have ha : (E.1.take 16).length = 16 := List.length_take_of_le (by omega)
    have hb : (E.1.drop 16).length = 4 + (p.length + 1 + pad.length) - 16 := by
      rw [List.length_drop, hct]
      omega
    have hE : E.1 = E.1.take 16 ++ E.1.drop 16 := (List.take_append_drop 16 E.1).symm
    generalize E.1.take 16 = a at ha hE htake
    generalize E.1.drop 16 = b at hb hE
    have ha' : aesBlockSize ∣ a.length := ha ▸ Nat.dvd_refl 16
    have hb' : aesBlockSize ∣ b.length := by
      rw [hb]
      show 16 ∣ _
      omega
    have hD₁ : (c.mode.decrypt c.iv a).1.length = 16 := (c.mode.length_decrypt _ _ ha').trans ha
    rw [hE, c.mode.decrypt_append c.iv a b ha' hb'] at hdec
    obtain ⟨hdata, hiv⟩ := Prod.mk.inj hdec
    have hn' : BigEndian.toNat ((c.mode.decrypt c.iv a).1.take 4) = p.length + 1 + pad.length := by
      rw [← hn, ← htake, List.take_take]
      rfl
    have hk' : ((c.mode.decrypt c.iv a).1.getD 4 0).toNat = pad.length := by
      rw [← hk, ← htake, List.getD_eq_getElem?_getD, List.getD_eq_getElem?_getD,
        List.getElem?_take_of_lt (by decide)]
    have hmac := length_macResult c.mac seqNum (plain p pad)
    have hbody : (plain p pad).drop prefixLen = p ++ pad := List.drop_left' (length_header _ _)
    rw [hE, List.append_assoc, List.append_assoc, readPacket]
    simp only [hfirst, hmul, hmin, hpad₄]
    rw [if_neg (by rw [List.length_append, ha]; omega), List.take_left' ha, List.drop_left' ha]
    simp only [hn', hk']
    rw [if_neg (by omega), if_neg (by omega), if_neg (by omega), if_neg (by omega),
      if_neg (by rw [List.length_append, List.length_append, hb, hmac]; omega),
      List.take_left' hb, hdata, List.drop_left' hb, List.take_left' hmac,
      if_neg (fun h => h rfl), ← List.drop_drop, List.drop_left' hb, List.drop_left' hmac, hbody,
      List.take_left' (by rw [hpre₅]; omega), hiv]

end CbcCipher

/-! ## Any packet cipher -/

/-- **A packet cipher.** -/
inductive PacketCipher
  | stream (s : StreamPacketCipher)
  | gcm (c : GcmCipher)
  | cbc (c : CbcCipher)

namespace PacketCipher

/-- `writePacket`. -/
def writePacket (seqNum : UInt32) (rand : ℕ → UInt8) (packet : Bytes) :
    PacketCipher → WriteEnd PacketCipher
  | stream s => (s.writePacket seqNum rand packet).map .stream
  | gcm c => (c.writePacket rand packet).map .gcm
  | cbc c => (c.writePacket seqNum rand packet).map .cbc

/-- `readPacket`, `none` where it waits. -/
def readPacket (seqNum : UInt32) (r : Bytes) : PacketCipher → Option (ReadEnd PacketCipher)
  | stream s => (s.readPacket seqNum r).map (.map .stream)
  | gcm c => (c.readPacket r).map (.map .gcm)
  | cbc c => (c.readPacket seqNum r).map (.map .cbc)

/-- A packet with its padding, as it looks on the wire. -/
def frame (seqNum : UInt32) (packet pad : Bytes) : PacketCipher → Bytes
  | stream s => s.frame seqNum packet pad
  | gcm c => c.frame packet pad
  | cbc c => c.frame seqNum packet pad

/-- The cipher behind a packet and its padding. -/
def next (packet pad : Bytes) : PacketCipher → PacketCipher
  | stream s => .stream (s.next (packet.length + pad.length))
  | gcm c => .gcm c.next
  | cbc c => .cbc (c.next packet pad)

/-- The length of the padding that is written with `n` bytes. -/
def paddingLength (n : ℕ) : PacketCipher → ℕ
  | stream _ => paddingTo (prefixLen + n)
  | gcm _ => paddingTo (1 + n)
  | cbc _ => CbcCipher.paddingLength n

/-- The lengths `k` of padding that are read with `n` bytes. -/
def Takes (n k : ℕ) : PacketCipher → Prop
  | stream _ => k < 256
  | gcm _ => 4 ≤ k ∧ k < 20
  | cbc _ => 4 ≤ k ∧ k < 256 ∧ aesBlockSize ∣ prefixLen + (n + k)

/-- No padding has twenty bytes. -/
theorem paddingLength_lt (c : PacketCipher) (n : ℕ) : c.paddingLength n < 20 := by
  cases c with
  | stream s => exact (paddingTo_bounds (prefixLen + n)).2
  | gcm c => exact (paddingTo_bounds (1 + n)).2
  | cbc c => exact (CbcCipher.paddingLength_spec n).2.1

/-- What is written is read. -/
theorem takes_paddingLength (c : PacketCipher) (n : ℕ) : c.Takes n (c.paddingLength n) := by
  cases c with
  | stream s =>
    have := paddingTo_bounds (prefixLen + n)
    show paddingTo (prefixLen + n) < 256
    omega
  | gcm c => exact paddingTo_bounds (1 + n)
  | cbc c =>
    obtain ⟨hlow, hhigh, -, hdvd⟩ := CbcCipher.paddingLength_spec n
    exact ⟨hlow, lt_of_lt_of_le hhigh (by decide), hdvd⟩

/-- How much longer than the packet and its padding a frame is. -/
def overhead : PacketCipher → ℕ
  | stream s => prefixLen + macSize s.mac
  | gcm _ => prefixLen + gcmTagSize
  | cbc c => prefixLen + macSize c.mac

theorem length_frame (c : PacketCipher) (seqNum : UInt32) {p pad : Bytes}
    (h : c.Takes p.length pad.length) :
    (c.frame seqNum p pad).length = p.length + pad.length + c.overhead := by
  cases c with
  | stream s =>
    rw [frame, s.length_frame, overhead]
    omega
  | gcm c =>
    rw [frame, c.length_frame, overhead]
    show _ = p.length + pad.length + (5 + _)
    omega
  | cbc c =>
    rw [frame, c.length_frame seqNum p pad h.2.2, overhead]
    omega

/-- The lengths of a packet and of its padding stand on the wire. -/
theorem frame_append_inj (c : PacketCipher) {seqNum : UInt32} {p pad q pad' rest rest' : Bytes}
    (hp : p.length + 1 + pad.length < 2 ^ 32) (hpad : c.Takes p.length pad.length)
    (hq : q.length + 1 + pad'.length < 2 ^ 32) (hpad' : c.Takes q.length pad'.length)
    (h : c.frame seqNum p pad ++ rest = c.frame seqNum q pad' ++ rest') :
    p.length + 1 + pad.length = q.length + 1 + pad'.length ∧ pad.length = pad'.length := by
  cases c with
  | stream s =>
    refine header_inj hp hpad hq hpad' ?_
    rw [← s.xor_take_frame seqNum p pad rest, ← s.xor_take_frame seqNum q pad' rest']
    exact congrArg (fun r => s.cipher.xor (r.take prefixLen)) h
  | gcm c =>
    exact c.frame_append_inj hp (hpad.2.trans (by decide)) hq (hpad'.2.trans (by decide)) h
  | cbc c =>
    obtain ⟨hlow, hhigh, hdvd⟩ := hpad
    obtain ⟨hlow', hhigh', hdvd'⟩ := hpad'
    refine header_inj hp hhigh hq hhigh' ?_
    rw [← c.decrypt_take_frame seqNum p pad rest hlow hdvd,
      ← c.decrypt_take_frame seqNum q pad' rest' hlow' hdvd']
    exact congrArg (fun r => (c.mode.decrypt c.iv (r.take 16)).1.take prefixLen) h

/-- **What is written is a frame**, the cipher is the one behind it, and the
length fits in its field. -/
theorem eq_frame_of_writePacket {c c' : PacketCipher} {seqNum : UInt32} {rand : ℕ → UInt8}
    {packet out : Bytes} (h : c.writePacket seqNum rand packet = .ok out c') :
    out = c.frame seqNum packet (padding rand (c.paddingLength packet.length))
      ∧ c' = c.next packet (padding rand (c.paddingLength packet.length))
      ∧ packet.length + 1 + c.paddingLength packet.length < 2 ^ 32 := by
  have hpad := c.paddingLength_lt packet.length
  cases c with
  | stream s =>
    rw [writePacket] at h
    by_cases hfit : packet.length ≤ maxPacket
    · rw [s.writePacket_eq seqNum rand hfit] at h
      obtain ⟨rfl, rfl⟩ := WriteEnd.ok.inj h
      have hmax : maxPacket + 128 < 2 ^ 32 := by decide
      rw [next, length_padding]
      exact ⟨rfl, rfl, by omega⟩
    · rw [StreamPacketCipher.writePacket, if_pos (Nat.lt_of_not_le hfit)] at h
      cases h
  | gcm c =>
    rw [writePacket] at h
    by_cases hfit : packet.length + paddingTo (1 + packet.length) + 1 < 2 ^ 32
    · rw [c.writePacket_eq rand hfit] at h
      obtain ⟨rfl, rfl⟩ := WriteEnd.ok.inj h
      rw [paddingLength]
      exact ⟨rfl, rfl, by omega⟩
    · rw [GcmCipher.writePacket, if_pos (Nat.le_of_not_lt hfit)] at h
      cases h
  | cbc c =>
    rw [writePacket] at h
    by_cases hfit : CbcCipher.encLength packet.length + macSize c.mac < 2 ^ 32
    · rw [c.writePacket_eq seqNum rand hfit] at h
      obtain ⟨rfl, rfl⟩ := WriteEnd.ok.inj h
      rw [(CbcCipher.paddingLength_spec packet.length).2.2.1, show prefixLen = 5 from rfl] at hfit
      rw [paddingLength]
      exact ⟨rfl, rfl, by omega⟩
    · rw [CbcCipher.writePacket, if_pos (Nat.le_of_not_lt hfit)] at h
      cases h

/-- A packet that is not too large without its padding can be written. -/
theorem exists_writePacket (c : PacketCipher) (seqNum : UInt32) (rand : ℕ → UInt8)
    {packet : Bytes} (h : packet.length ≤ maxPacket) :
    ∃ out c', c.writePacket seqNum rand packet = .ok out c' := by
  have hmax : maxPacket + 128 < 2 ^ 32 := by decide
  have hpad := c.paddingLength_lt packet.length
  cases c with
  | stream s =>
    rw [writePacket, s.writePacket_eq seqNum rand h]
    exact ⟨_, _, rfl⟩
  | gcm c =>
    have hfit : packet.length + paddingTo (1 + packet.length) + 1 < 2 ^ 32 := by
      have : paddingTo (1 + packet.length) < 20 := hpad
      omega
    rw [writePacket, c.writePacket_eq rand hfit]
    exact ⟨_, _, rfl⟩
  | cbc c =>
    have hfit : CbcCipher.encLength packet.length + macSize c.mac < 2 ^ 32 := by
      have hsize : CbcCipher.paddingLength packet.length < 20 := hpad
      have hmac := c.macSize_le
      rw [(CbcCipher.paddingLength_spec packet.length).2.2.1]
      show 5 + _ + _ < _
      omega
    rw [writePacket, c.writePacket_eq seqNum rand hfit]
    exact ⟨_, _, rfl⟩

/-- What a cipher accepts. -/
theorem readPacket_ok {c c' : PacketCipher} {seqNum : UInt32} {r p rest : Bytes} :
    c.readPacket seqNum r = some (.ok p rest c') ↔
      ∃ pad : Bytes, c.Takes p.length pad.length ∧ p ≠ []
        ∧ p.length + 1 + pad.length ≤ maxPacket
        ∧ r = c.frame seqNum p pad ++ rest ∧ c' = c.next p pad := by
  cases c with
  | stream s =>
    rw [readPacket, ReadEnd.map_eq_ok]
    constructor
    · rintro ⟨s', hs', rfl⟩
      obtain ⟨pad, hpad, hp, hmax, hr, rfl⟩ := (s.readPacket_eq_ok_iff seqNum r p rest s').mp hs'
      exact ⟨pad, hpad, hp, hmax, hr, rfl⟩
    · rintro ⟨pad, hpad, hp, hmax, hr, rfl⟩
      exact ⟨_, (s.readPacket_eq_ok_iff seqNum r p rest _).mpr ⟨pad, hpad, hp, hmax, hr, rfl⟩, rfl⟩
  | gcm c =>
    rw [readPacket, ReadEnd.map_eq_ok]
    constructor
    · rintro ⟨c'', hc'', rfl⟩
      obtain ⟨pad, hpad, hp, hmax, hr, rfl⟩ := (c.readPacket_eq_ok_iff r p rest c'').mp hc''
      exact ⟨pad, hpad, hp, hmax, hr, rfl⟩
    · rintro ⟨pad, hpad, hp, hmax, hr, rfl⟩
      exact ⟨_, (c.readPacket_eq_ok_iff r p rest _).mpr ⟨pad, hpad, hp, hmax, hr, rfl⟩, rfl⟩
  | cbc c =>
    rw [readPacket, ReadEnd.map_eq_ok]
    constructor
    · rintro ⟨c'', hc'', rfl⟩
      obtain ⟨pad, hpad, hp, hmax, hr, rfl⟩ := (c.readPacket_eq_ok_iff seqNum r p rest c'').mp hc''
      exact ⟨pad, hpad, hp, hmax, hr, rfl⟩
    · rintro ⟨pad, hpad, hp, hmax, hr, rfl⟩
      exact ⟨_, (c.readPacket_eq_ok_iff seqNum r p rest _).mpr ⟨pad, hpad, hp, hmax, hr, rfl⟩, rfl⟩

end PacketCipher

/-- **Which bytes a packet cipher accepts**: the frames of packets that are not
empty and, with their padding, not too large. The padding may have any
contents and any length that the cipher takes; only under CBC must it fill
the packet to a multiple of anything. -/
theorem packet_accepted_iff (c : PacketCipher) (seqNum : UInt32) (r p rest : Bytes)
    (c' : PacketCipher) :
    c.readPacket seqNum r = some (.ok p rest c') ↔
      ∃ pad : Bytes, c.Takes p.length pad.length ∧ p ≠ []
        ∧ p.length + 1 + pad.length ≤ maxPacket
        ∧ r = c.frame seqNum p pad ++ rest ∧ c' = c.next p pad :=
  PacketCipher.readPacket_ok

/-- **Which packets come back.** A packet that was written is read by the same
cipher, and leaves it as it left the writer's, exactly if it is not empty and
fits in `maxPacket` together with its padding; of any other packet that was
written nothing is accepted. The writer asks less: it writes every packet that
fits without its padding. -/
theorem packet_comes_back_iff (c : PacketCipher) (seqNum : UInt32) (rand : ℕ → UInt8)
    (p : Bytes) :
    (∀ out c' rest, c.writePacket seqNum rand p = .ok out c' →
      (c.readPacket seqNum (out ++ rest) = some (.ok p rest c') ↔
        p ≠ [] ∧ p.length + 1 + c.paddingLength p.length ≤ maxPacket)
      ∧ ((∃ q rest' c₁, c.readPacket seqNum (out ++ rest) = some (.ok q rest' c₁)) →
        p ≠ [] ∧ p.length + 1 + c.paddingLength p.length ≤ maxPacket))
    ∧ (p.length ≤ maxPacket → ∃ out c', c.writePacket seqNum rand p = .ok out c') := by
  refine ⟨fun out c' rest h => ?_, c.exists_writePacket seqNum rand⟩
  obtain ⟨rfl, rfl, hfit⟩ := PacketCipher.eq_frame_of_writePacket h
  have hlen := length_padding rand (c.paddingLength p.length)
  have htakes : c.Takes p.length (padding rand (c.paddingLength p.length)).length := by
    rw [hlen]
    exact c.takes_paddingLength _
  have haccepts : (∃ q rest' c₁, c.readPacket seqNum
      (c.frame seqNum p (padding rand (c.paddingLength p.length)) ++ rest)
        = some (.ok q rest' c₁)) →
      p ≠ [] ∧ p.length + 1 + c.paddingLength p.length ≤ maxPacket := by
    rintro ⟨q, rest', c₁, hread⟩
    obtain ⟨pad, hpad, hq, hmax, hframe, -⟩ := PacketCipher.readPacket_ok.mp hread
    have hq₁ : 0 < q.length := List.length_pos_iff.mpr hq
    obtain ⟨htotal, hpads⟩ := c.frame_append_inj (by omega) htakes
      (lt_of_le_of_lt hmax (by decide)) hpad hframe
    exact ⟨List.length_pos_iff.mp (by omega), by omega⟩
  refine ⟨⟨fun hread => haccepts ⟨_, _, _, hread⟩, ?_⟩, haccepts⟩
  rintro ⟨hp, hmax⟩
  refine PacketCipher.readPacket_ok.mpr
    ⟨padding rand (c.paddingLength p.length), htakes, hp, ?_, rfl, rfl⟩
  rw [hlen]
  exact hmax

/-- The cipher of a new connection. -/
def noneCipher : PacketCipher := .stream ⟨none, ⟨fun _ => 0, 0⟩⟩

/-- A first packet comes back; an empty one is written, and nothing is accepted
of it. -/
theorem packet_comes_back_first :
    (∃ out c', noneCipher.writePacket 0 (fun _ => 9) [21] = .ok out c'
      ∧ noneCipher.readPacket 0 (out ++ [7]) = some (.ok [21] [7] c'))
    ∧ ∃ out c', noneCipher.writePacket 0 (fun _ => 9) [] = .ok out c'
      ∧ ¬ ∃ q rest' c₁, noneCipher.readPacket 0 (out ++ [7]) = some (.ok q rest' c₁) := by
  refine ⟨⟨_, _, rfl, ?_⟩, _, _, rfl, fun h => ?_⟩
  · exact ((packet_comes_back_iff noneCipher 0 (fun _ => 9) [21]).1 _ _ [7] rfl).1.mpr
      ⟨by decide, by decide⟩
  · exact (((packet_comes_back_iff noneCipher 0 (fun _ => 9) []).1 _ _ [7] rfl).2 h).1 rfl

end Ssh
