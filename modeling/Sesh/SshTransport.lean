import Sesh.SshCipher

/-!
# The transport

A connection begins with a line from each side that names its version, and
goes on with packets (`ssh/transport.go`). Each direction has its own packet
cipher and counts its packets. New keys are prepared for both directions at
once, and each is put to use by a packet of its own, `msgNewKeys`: the writer
changes behind it, and so does the reader.

Whether the two change at the same place is a matter of what is on the wire.
`Ssh.Pipe` says that some bytes are the frames of some packets, from the
keys the reader has now to those the writer has; a packet that is written is
added to it (`Pipe.write`), and the next one is read from it
(`Pipe.read`), whatever the keys between them.
-/

namespace Ssh

/-! ## The version lines -/

/-- `maxVersionStringBytes`. -/
def maxVersionStringBytes : ℕ := 255

/-- What `exchangeVersions` writes. -/
def exchangeVersions (versionLine : Bytes) : Except GoString Bytes :=
  if versionLine.any (fun c => decide (c < 32)) then
    .error "ssh: junk character in version line".toList
  else .ok (versionLine ++ [13, 10])

/-- The loop of `readVersion`, `none` where it waits. -/
def readVersionLoop (versionString : Bytes) : Bytes → Option (Except GoString (Bytes × Bytes))
  | [] =>
    if versionString.length < maxVersionStringBytes then none
    else some (.error "ssh: overflow reading version string".toList)
  | b :: r =>
    if versionString.length < maxVersionStringBytes then
      if b = 10 then some (.ok (versionString, r)) else readVersionLoop (versionString ++ [b]) r
    else some (.error "ssh: overflow reading version string".toList)

/-- A carriage return at the end is removed. -/
def stripReturn (versionString : Bytes) : Bytes :=
  if versionString.getLast? = some 13 then versionString.dropLast else versionString

/-- `readVersion`: the version and what is left. -/
def readVersion (r : Bytes) : Option (Except GoString (Bytes × Bytes)) :=
  (readVersionLoop [] r).map (fun
    | .ok (versionString, rest) => .ok (stripReturn versionString, rest)
    | .error err => .error err)

/-- The loop goes over what is no end of a line, as long as there is room. -/
theorem readVersionLoop_append {acc v : Bytes} (r : Bytes) (hv : ∀ b ∈ v, b ≠ 10)
    (hlen : acc.length + v.length ≤ maxVersionStringBytes) :
    readVersionLoop acc (v ++ r) = readVersionLoop (acc ++ v) r := by
  induction v generalizing acc with
  | nil => rw [List.append_nil, List.nil_append]
  | cons b v ih =>
    rw [List.length_cons] at hlen
    rw [List.cons_append, readVersionLoop, if_pos (by omega),
      if_neg (hv b List.mem_cons_self),
      ih (fun c hc => hv c (List.mem_cons_of_mem b hc)) (by rw [List.length_append]; simp; omega),
      List.append_assoc]
    rfl

/-- There is no room for more. -/
theorem readVersionLoop_full {acc : Bytes} (r : Bytes) (h : maxVersionStringBytes ≤ acc.length) :
    readVersionLoop acc r = some (.error "ssh: overflow reading version string".toList) := by
  cases r with
  | nil => rw [readVersionLoop, if_neg (by omega)]
  | cons b r => rw [readVersionLoop, if_neg (by omega)]

/-- **`connectionState`**: the keys in use, and those that are prepared. -/
structure ConnectionState where
  packetCipher : PacketCipher
  seqNum : UInt32
  /-- A channel that holds one. -/
  pendingKeyChange : Option PacketCipher

namespace ConnectionState

/-- `readPacket`, `none` where it waits. -/
def readPacket (s : ConnectionState) (r : Bytes) : Option (ReadEnd ConnectionState) :=
  match s.packetCipher.readPacket s.seqNum r with
  | none => none
  | some .crash => some .crash
  | some (.error msg) => some (.error msg)
  | some (.ok packet rest c) =>
    match packet with
    | [] => some (.error "ssh: zero length packet".toList)
    | b :: _ =>
      if b = msgNewKeys then
        match s.pendingKeyChange with
        | some c => some (.ok packet rest ⟨c, s.seqNum + 1, none⟩)
        | none => some (.error "ssh: got bogus newkeys message.".toList)
      else some (.ok packet rest { s with packetCipher := c, seqNum := s.seqNum + 1 })

/-- `writePacket`. -/
def writePacket (s : ConnectionState) (rand : ℕ → UInt8) (packet : Bytes) :
    WriteEnd ConnectionState :=
  match s.packetCipher.writePacket s.seqNum rand packet with
  | .crash => .crash
  | .error msg => .error msg
  | .ok out c =>
    if packet.head? = some msgNewKeys then
      match s.pendingKeyChange with
      | some c => .ok out ⟨c, s.seqNum + 1, none⟩
      -- "ssh: no key material for msgNewKeys"
      | none => .crash
    else .ok out { s with packetCipher := c, seqNum := s.seqNum + 1 }

end ConnectionState

/-! ## What is on the wire -/

/-- **A place in the stream of packets of one direction**: how many times the
keys were changed, the cipher, and the number of the packet. -/
structure Stage where
  epoch : ℕ
  cipher : PacketCipher
  seqNum : UInt32

/-- The keys in use, as a place. -/
def ConnectionState.stage (s : ConnectionState) (epoch : ℕ) : Stage :=
  ⟨epoch, s.packetCipher, s.seqNum⟩

/-- The place behind a packet and its padding; `keys` are those that the
changes of keys put to use. -/
def Stage.after (keys : ℕ → PacketCipher) (s : Stage) (p pad : Bytes) : Stage :=
  if p.head? = some msgNewKeys then ⟨s.epoch + 1, keys (s.epoch + 1), s.seqNum + 1⟩
  else ⟨s.epoch, s.cipher.next p pad, s.seqNum + 1⟩

/-- Whether a packet can be read, with a padding. -/
def Stage.Fits (s : Stage) (p pad : Bytes) : Prop :=
  s.cipher.Takes p.length pad.length ∧ p ≠ [] ∧ p.length + 1 + pad.length ≤ maxPacket

/-- **The bytes on the wire** between a reader and a writer: the frames of some
packets. -/
inductive Pipe (keys : ℕ → PacketCipher) : Stage → List Bytes → Bytes → Stage → Prop
  | nil (s : Stage) : Pipe keys s [] [] s
  | cons {s t : Stage} {ps : List Bytes} {w : Bytes} (p pad : Bytes) (hp : s.Fits p pad)
      (h : Pipe keys (s.after keys p pad) ps w t) :
      Pipe keys s (p :: ps) (s.cipher.frame s.seqNum p pad ++ w) t

namespace Pipe

variable {keys : ℕ → PacketCipher} {s t : Stage} {ps : List Bytes} {w : Bytes}

/-- A frame at the end. -/
theorem concat (h : Pipe keys s ps w t) {p pad : Bytes} (hp : t.Fits p pad) :
    Pipe keys s (ps ++ [p]) (w ++ t.cipher.frame t.seqNum p pad) (t.after keys p pad) := by
  induction h with
  | nil s =>
    have := Pipe.cons p pad hp (.nil (s.after keys p pad))
    rwa [List.append_nil] at this
  | cons q pad' hq _ ih =>
    rw [List.append_assoc]
    exact .cons q pad' hq (ih hp)

variable (keys) in
/-- **What a writer makes of a packet** that is not too large, whatever is on
the wire. -/
theorem write {c : ConnectionState} (epoch : ℕ) {p : Bytes} (hp : p ≠ [])
    (hmax : p.length + 1 + c.packetCipher.paddingLength p.length ≤ maxPacket)
    (hkeys : p.head? = some msgNewKeys → c.pendingKeyChange = some (keys (epoch + 1)))
    (rand : ℕ → UInt8) :
    ∃ out c', c.writePacket rand p = .ok out c'
      ∧ c'.pendingKeyChange = (if p.head? = some msgNewKeys then none else c.pendingKeyChange)
      ∧ ∀ {s ps w}, Pipe keys s ps w (c.stage epoch) → Pipe keys s (ps ++ [p]) (w ++ out)
        (c'.stage (if p.head? = some msgNewKeys then epoch + 1 else epoch)) := by
  have hlen : p.length ≤ maxPacket := by omega
  obtain ⟨out, k, hk⟩ := c.packetCipher.exists_writePacket c.seqNum rand hlen
  obtain ⟨rfl, rfl, -⟩ := PacketCipher.eq_frame_of_writePacket hk
  have hfits : (c.stage epoch).Fits p
      (padding rand (c.packetCipher.paddingLength p.length)) := by
    rw [Stage.Fits, length_padding]
    exact ⟨c.packetCipher.takes_paddingLength _, hp, hmax⟩
  rw [ConnectionState.writePacket, hk]
  simp only []
  by_cases hnew : p.head? = some msgNewKeys
  · rw [if_pos hnew, if_pos hnew, if_pos hnew, hkeys hnew]
    refine ⟨_, _, rfl, rfl, fun {s ps w} h => ?_⟩
    have hpipe := h.concat hfits
    rwa [Stage.after, if_pos hnew] at hpipe
  · rw [if_neg hnew, if_neg hnew, if_neg hnew]
    refine ⟨_, _, rfl, rfl, fun {s ps w} h => ?_⟩
    have hpipe := h.concat hfits
    rwa [Stage.after, if_neg hnew] at hpipe

/-- **A reader reads the next packet.** -/
theorem read {c : ConnectionState} {epoch : ℕ} {p : Bytes}
    (h : Pipe keys (c.stage epoch) (p :: ps) w t)
    (hkeys : p.head? = some msgNewKeys → c.pendingKeyChange = some (keys (epoch + 1))) :
    ∃ rest c', c.readPacket w = some (.ok p rest c')
      ∧ Pipe keys (c'.stage (if p.head? = some msgNewKeys then epoch + 1 else epoch)) ps rest t
      ∧ c'.pendingKeyChange
        = if p.head? = some msgNewKeys then none else c.pendingKeyChange := by
  cases h with
  | cons _ pad hp h =>
    rename_i rest
    obtain ⟨htakes, hne, hmax⟩ := hp
    have hread : c.packetCipher.readPacket c.seqNum
        (c.packetCipher.frame c.seqNum p pad ++ rest)
          = some (.ok p rest (c.packetCipher.next p pad)) :=
      PacketCipher.readPacket_ok.mpr ⟨pad, htakes, hne, hmax, rfl, rfl⟩
    obtain ⟨b, q, rfl⟩ := List.exists_cons_of_ne_nil hne
    show ∃ rest' c', c.readPacket (c.packetCipher.frame c.seqNum (b :: q) pad ++ rest)
      = some (.ok (b :: q) rest' c') ∧ _
    rw [ConnectionState.readPacket, hread]
    simp only []
    rw [Stage.after] at h
    by_cases hnew : b = msgNewKeys
    · have hhead : (b :: q).head? = some msgNewKeys := congrArg some hnew
      rw [if_pos hhead] at h
      rw [if_pos hnew, hkeys hhead]
      refine ⟨_, _, rfl, ?_, ?_⟩
      · rw [if_pos hhead]
        exact h
      · rw [if_pos hhead]
    · have hhead : ¬ (b :: q).head? = some msgNewKeys := fun heq => hnew (Option.some.inj heq)
      rw [if_neg hhead] at h
      rw [if_neg hnew]
      refine ⟨_, _, rfl, ?_, ?_⟩
      · rw [if_neg hhead]
        exact h
      · rw [if_neg hhead]

/-- Where there is nothing on the wire, a reader waits. -/
theorem read_nil {c : ConnectionState} {epoch : ℕ} (h : Pipe keys (c.stage epoch) [] w t) :
    c.readPacket w = none := by
  cases h
  rw [ConnectionState.readPacket]
  cases c.packetCipher with
  | stream s => rfl
  | gcm c => rfl
  | cbc c => rfl

end Pipe

end Ssh
