import Mathlib.Data.List.Induction
import Mathlib.Data.Nat.Size
import Mathlib.Tactic.Ring
import Sesh.ByteStore

/-!
# Numbers as bytes

Numbers travel as bytes, the most significant one first. There are two ways
to write one: in a width both sides know (`BigEndian.ofNat`), where the
number is cut to the width, and in as many bytes as it needs
(`BigEndian.ofNatMin`), where the first byte is not zero. Both are read by
`BigEndian.toNat`, and each is the inverse of reading on the bytes it can
produce (`ofNat_toNat`, `ofNatMin_toNat`).

A signed number is read as two's complement by inverting every byte of one
whose first bit is set (`BigEndian.invert`); what that does to the number is
`toNat_invert`.
-/

namespace BigEndian

/-- **The number some bytes stand for**, the first being the most
significant. -/
def toNat (b : Bytes) : ℕ := b.foldl (fun n x => n * 256 + x.toNat) 0

/-- **A number in `w` bytes**, without what does not fit. -/
def ofNat : ℕ → ℕ → Bytes
  | 0, _ => []
  | w + 1, n => ofNat w (n / 256) ++ [UInt8.ofNat n]

/-! ## Reading -/

@[simp] theorem toNat_nil : toNat [] = 0 := rfl

theorem toNat_concat (b : Bytes) (x : UInt8) : toNat (b ++ [x]) = toNat b * 256 + x.toNat := by
  rw [toNat, List.foldl_append]
  rfl

/-- The bytes in front count for more by the width of those that follow. -/
theorem toNat_append (a b : Bytes) : toNat (a ++ b) = toNat a * 256 ^ b.length + toNat b := by
  induction b using List.reverseRecOn with
  | nil => simp
  | append_singleton b x ih =>
    rw [← List.append_assoc, toNat_concat, ih, toNat_concat, List.length_append,
      List.length_singleton, pow_succ]
    ring

theorem toNat_cons (x : UInt8) (b : Bytes) :
    toNat (x :: b) = x.toNat * 256 ^ b.length + toNat b := by
  have h := toNat_append [x] b
  rwa [show toNat [x] = x.toNat from Nat.zero_add _] at h

/-- A number fits in the bytes it is read from. -/
theorem toNat_lt (b : Bytes) : toNat b < 256 ^ b.length := by
  induction b using List.reverseRecOn with
  | nil => exact Nat.one_pos
  | append_singleton b x ih =>
    have hx : x.toNat < 256 := x.toNat_lt
    rw [toNat_concat, List.length_append, List.length_singleton, pow_succ]
    omega

/-! ## Writing in a fixed width -/

@[simp] theorem length_ofNat (w n : ℕ) : (ofNat w n).length = w := by
  induction w generalizing n with
  | zero => rfl
  | succ w ih => rw [ofNat, List.length_append, ih, List.length_singleton]

/-- **What is read is what was written**, as far as it fits. -/
theorem toNat_ofNat (w n : ℕ) : toNat (ofNat w n) = n % 256 ^ w := by
  induction w generalizing n with
  | zero => rw [pow_zero, Nat.mod_one]; rfl
  | succ w ih =>
    have hbyte : (UInt8.ofNat n).toNat = n % 256 := UInt8.toNat_ofNat'
    rw [ofNat, toNat_concat, ih, hbyte, pow_succ', Nat.mod_mul]
    omega

theorem toNat_ofNat_of_lt {w n : ℕ} (h : n < 256 ^ w) : toNat (ofNat w n) = n := by
  rw [toNat_ofNat, Nat.mod_eq_of_lt h]

/-- **What is written is what was read**: a width has one way to write a
number. -/
theorem ofNat_toNat (b : Bytes) : ofNat b.length (toNat b) = b := by
  induction b using List.reverseRecOn with
  | nil => rfl
  | append_singleton b x ih =>
    have hx : x.toNat < 256 := x.toNat_lt
    have hdiv : (toNat b * 256 + x.toNat) / 256 = toNat b := by omega
    have hbyte : UInt8.ofNat (toNat b * 256 + x.toNat) = x := by
      apply UInt8.toNat_inj.mp
      rw [UInt8.toNat_ofNat']
      omega
    rw [List.length_append, List.length_singleton, ofNat, toNat_concat, hdiv, ih, hbyte]

/-- The first byte of a number. -/
theorem ofNat_succ (w n : ℕ) : ofNat (w + 1) n = UInt8.ofNat (n / 256 ^ w) :: ofNat w n := by
  induction w generalizing n with
  | zero =>
    rw [pow_zero, Nat.div_one]
    rfl
  | succ w ih =>
    rw [ofNat, ih, Nat.div_div_eq_div_mul, ← pow_succ']
    rfl

/-! ## Writing in as few bytes as possible -/

/-- How many bytes a number needs. -/
def width (n : ℕ) : ℕ := (Nat.size n + 7) / 8

/-- **A number in as many bytes as it needs.** -/
def ofNatMin (n : ℕ) : Bytes := ofNat (width n) n

theorem pow_256 (w : ℕ) : 256 ^ w = 2 ^ (8 * w) := (pow_mul 2 8 w).symm

/-- A number fits in its width. -/
theorem lt_pow_width (n : ℕ) : n < 256 ^ width n := by
  rw [pow_256]
  exact Nat.size_le.mp (by rw [width]; omega)

/-- A number does not fit in less than its width. -/
theorem le_of_width_eq_succ {n w : ℕ} (h : width n = w + 1) : 256 ^ w ≤ n := by
  rw [pow_256]
  exact Nat.lt_size.mp (by rw [width] at h; omega)

theorem toNat_ofNatMin (n : ℕ) : toNat (ofNatMin n) = n :=
  toNat_ofNat_of_lt (lt_pow_width n)

@[simp] theorem length_ofNatMin (n : ℕ) : (ofNatMin n).length = width n := length_ofNat _ _

/-- Where the width lies. -/
theorem width_eq {n w : ℕ} (hle : 256 ^ w ≤ n) (hlt : n < 256 ^ (w + 1)) : width n = w + 1 := by
  rw [pow_256] at hle hlt
  have h₁ := Nat.lt_size.mpr hle
  have h₂ := Nat.size_le.mpr hlt
  rw [width]
  omega

/-- A number read with no zeros in front needs all of its bytes. -/
theorem width_toNat {x : UInt8} {b : Bytes} (hx : x ≠ 0) :
    width (toNat (x :: b)) = (x :: b).length := by
  have hpos : 0 < x.toNat := Nat.pos_of_ne_zero fun h => hx (UInt8.toNat_inj.mp h)
  refine width_eq ?_ (toNat_lt _)
  rw [toNat_cons]
  exact Nat.le_add_right_of_le (Nat.le_mul_of_pos_left _ hpos)

/-- **A number is written as it was read**, unless it was read with zeros in
front. -/
theorem ofNatMin_toNat {x : UInt8} {b : Bytes} (hx : x ≠ 0) :
    ofNatMin (toNat (x :: b)) = x :: b := by
  rw [ofNatMin, width_toNat hx, ofNat_toNat]

/-- Every positive number is read from bytes that begin with another than
zero. -/
theorem exists_toNat {n : ℕ} (hn : 0 < n) : ∃ x b, x ≠ 0 ∧ toNat (x :: b) = n := by
  have hsize : 0 < Nat.size n := Nat.size_pos.mpr hn
  obtain ⟨w, hw⟩ : ∃ w, width n = w + 1 := ⟨width n - 1, by rw [width]; omega⟩
  have hpow : 0 < 256 ^ w := Nat.pow_pos (by decide)
  have hlt : n / 256 ^ w < 256 := by
    rw [Nat.div_lt_iff_lt_mul hpow, ← pow_succ', ← hw]
    exact lt_pow_width n
  refine ⟨UInt8.ofNat (n / 256 ^ w), ofNat w n, fun h => ?_, ?_⟩
  · have hx := congrArg UInt8.toNat h
    rw [UInt8.toNat_ofNat', Nat.mod_eq_of_lt hlt] at hx
    exact (Nat.div_pos (le_of_width_eq_succ hw) hpow).ne' hx
  · rw [← ofNat_succ, ← hw]
    exact toNat_ofNatMin n

/-- **The first bit of a number** is set where the number fills its bytes. -/
theorem size_toNat {x : UInt8} {b : Bytes} (hx : x ≠ 0) :
    128 ≤ x.toNat ↔ Nat.size (toNat (x :: b)) % 8 = 0 := by
  have hw := width_toNat (b := b) hx
  have hlt := toNat_lt b
  have hbit : 128 * 256 ^ b.length = 2 ^ (8 * b.length + 7) := by
    rw [pow_256, pow_add]
    ring
  have hle : 128 ≤ x.toNat ↔ 128 * 256 ^ b.length ≤ toNat (x :: b) := by
    rw [toNat_cons]
    constructor
    · exact fun h => Nat.le_add_right_of_le (Nat.mul_le_mul_right _ h)
    · intro h
      by_contra hx'
      have hmul : (x.toNat + 1) * 256 ^ b.length ≤ 128 * 256 ^ b.length :=
        Nat.mul_le_mul_right _ (by omega)
      rw [Nat.add_mul, Nat.one_mul] at hmul
      omega
  rw [hle, hbit, ← Nat.lt_size]
  rw [width, List.length_cons] at hw
  omega

/-! ## Two's complement -/

/-- Every bit the other way. -/
def invert (b : Bytes) : Bytes := b.map (fun x => ~~~x)

@[simp] theorem length_invert (b : Bytes) : (invert b).length = b.length := List.length_map _

@[simp] theorem invert_invert (b : Bytes) : invert (invert b) = b := by
  rw [invert, invert, List.map_map]
  exact List.map_id'' (fun x => UInt8.not_not) b

theorem toNat_not (x : UInt8) : (~~~x).toNat = 255 - x.toNat := by
  rw [UInt8.toNat_not]
  rfl

/-- **Inverting takes a number to what is missing** to the largest one of its
width. -/
theorem toNat_invert (b : Bytes) : toNat (invert b) + toNat b + 1 = 256 ^ b.length := by
  induction b with
  | nil => rfl
  | cons x b ih =>
    have hx : x.toNat < 256 := x.toNat_lt
    have hsum : (255 - x.toNat) * 256 ^ b.length + x.toNat * 256 ^ b.length
        = 255 * 256 ^ b.length := by
      rw [← Nat.add_mul]
      congr 1
      omega
    rw [show invert (x :: b) = ~~~x :: invert b from rfl, toNat_cons, toNat_cons, toNat_not,
      length_invert, List.length_cons, pow_succ]
    omega

end BigEndian
