import Mathlib.Data.List.Basic
import Mathlib.Tactic.Basic
import Sesh.ByteStore

/-!
# Symmetric cryptography, by its laws

What a protocol needs to know of the ciphers it is run with: that a stream
cipher adds a key stream to the data, that a message authentication code has
a fixed length and so has a hash, that an authenticated cipher opens exactly
what it has sealed, and that a block cipher in some mode of operation deciphers what it
has enciphered, piece by piece. Nothing is said of secrecy.
-/

namespace Symmetric

/-! ## Stream ciphers -/

/-- **A stream cipher**: its key stream, and how much of it has been used. -/
structure KeyStream where
  byte : ℕ → UInt8
  pos : ℕ

namespace KeyStream

/-- The cipher after `n` more bytes. -/
def skip (s : KeyStream) (n : ℕ) : KeyStream := { s with pos := s.pos + n }

/-- The data with the next bytes of the key stream added to it. -/
def xor (s : KeyStream) : Bytes → Bytes
  | [] => []
  | b :: data => (b ^^^ s.byte s.pos) :: (s.skip 1).xor data

@[simp] theorem skip_zero (s : KeyStream) : s.skip 0 = s := rfl

@[simp] theorem skip_skip (s : KeyStream) (m n : ℕ) : (s.skip m).skip n = s.skip (m + n) := by
  rw [skip, skip, skip, Nat.add_assoc]

@[simp] theorem xor_nil (s : KeyStream) : s.xor [] = [] := rfl

@[simp] theorem length_xor (s : KeyStream) (data : Bytes) : (s.xor data).length = data.length := by
  induction data generalizing s with
  | nil => rfl
  | cons b data ih => rw [xor, List.length_cons, List.length_cons, ih]

/-- Data in two pieces. -/
theorem xor_append (s : KeyStream) (a b : Bytes) :
    s.xor (a ++ b) = s.xor a ++ (s.skip a.length).xor b := by
  induction a generalizing s with
  | nil => rfl
  | cons x a ih =>
    rw [List.cons_append, xor, ih, xor, List.cons_append, skip_skip, List.length_cons,
      Nat.add_comm 1]

/-- **Adding the key stream twice gives the data back.** -/
@[simp] theorem xor_xor (s : KeyStream) (data : Bytes) : s.xor (s.xor data) = data := by
  induction data generalizing s with
  | nil => rfl
  | cons b data ih => rw [xor, xor, ih, UInt8.xor_assoc, UInt8.xor_self, UInt8.xor_zero]

end KeyStream

/-! ## Message authentication codes -/

/-- **A message authentication code** under some key. -/
structure Mac where
  sum : Bytes → Bytes
  size : ℕ
  length_sum : ∀ m, (sum m).length = size

/-- A code of which only the first `n` bytes are used. -/
def Mac.truncate (m : Mac) (n : ℕ) (h : n ≤ m.size) : Mac where
  sum b := (m.sum b).take n
  size := n
  length_sum b := List.length_take_of_le ((m.length_sum b).symm ▸ h)

/-! ## Hash functions -/

/-- **A hash function.** -/
structure Hash where
  sum : Bytes → Bytes
  size : ℕ
  length_sum : ∀ m, (sum m).length = size
  size_pos : 0 < size

/-! ## Authenticated ciphers -/

/-- **An authenticated cipher** under some key, which adds `overhead` bytes:
it opens exactly what it has sealed with the same nonce and the same
additional data. -/
structure Aead (overhead : ℕ) where
  encrypt : (nonce plain data : Bytes) → Bytes
  decrypt : (nonce cipher data : Bytes) → Option Bytes
  length_encrypt : ∀ n p d, (encrypt n p d).length = p.length + overhead
  decrypt_eq_some_iff : ∀ n c d p, decrypt n c d = some p ↔ c = encrypt n p d

/-! ## Block ciphers -/

/-- **A block cipher in a mode of operation**, under some key. What it keeps
from one piece of data to the next is a string of bytes, the initialisation
vector of the next piece; the pieces are whole blocks. -/
structure BlockMode (blockSize : ℕ) where
  encrypt : (iv data : Bytes) → Bytes × Bytes
  decrypt : (iv data : Bytes) → Bytes × Bytes
  length_encrypt : ∀ iv d, blockSize ∣ d.length → (encrypt iv d).1.length = d.length
  length_decrypt : ∀ iv d, blockSize ∣ d.length → (decrypt iv d).1.length = d.length
  decrypt_encrypt : ∀ iv d, blockSize ∣ d.length →
    decrypt iv (encrypt iv d).1 = (d, (encrypt iv d).2)
  encrypt_decrypt : ∀ iv d, blockSize ∣ d.length →
    encrypt iv (decrypt iv d).1 = (d, (decrypt iv d).2)
  decrypt_append : ∀ iv a b, blockSize ∣ a.length → blockSize ∣ b.length →
    decrypt iv (a ++ b) = ((decrypt iv a).1 ++ (decrypt (decrypt iv a).2 b).1,
      (decrypt (decrypt iv a).2 b).2)

end Symmetric
