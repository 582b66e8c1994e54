import Mathlib.Data.List.Basic
import Mathlib.Logic.Function.Basic
import Mathlib.Tactic.Basic

/-!
# Files written through handles

A directory tree seen from one process: locations are linked to inodes, an
inode holds bytes, and an open file is a handle with an offset of its own.
Creating a location that exists truncates its inode and opens it again –
which is how two writers come to share a file without either noticing – and
removing a location only unlinks it.

The proofs about programs that write files use one predicate,
`ByteStore.Owns`: a handle owns a location when the location is linked to
the handle's inode and the handle stands at the end of what the inode
holds. Owners of different locations do not disturb each other, whatever
they do, and the lemmas below say so operation by operation; that is all a
program needs which gives each writer a location of its own.
-/

/-- A sequence of bytes. -/
abbrev Bytes := List UInt8

/-- An open file: its inode, and the offset its next write goes to. -/
structure Handle where
  /-- The inode the file was opened on. -/
  inode : ℕ
  /-- The position of the next write. -/
  offset : ℕ
  deriving DecidableEq, Repr

/-- A write at an offset: what is there is overwritten, and a gap before it
is filled with zeros. -/
def writeAt (d : Bytes) (offset : ℕ) (b : Bytes) : Bytes :=
  (d ++ List.replicate (offset - d.length) 0).take offset ++ b
    ++ d.drop (offset + b.length)

/-- A write at the end appends. -/
theorem writeAt_length (d b : Bytes) : writeAt d d.length b = d ++ b := by
  unfold writeAt
  rw [Nat.sub_self, List.replicate_zero, List.append_nil, List.take_length,
    List.drop_eq_nil_of_le (Nat.le_add_right _ _), List.append_nil]

/-- **A store of files**: which inode each location is linked to, and what
each inode holds. Linked inodes have been allocated and no inode is linked
twice. -/
structure ByteStore (κ : Type) where
  /-- The inode a location is linked to. -/
  links : κ → Option ℕ
  /-- The bytes of an inode. -/
  data : ℕ → Bytes
  /-- The first inode that was never allocated. -/
  next : ℕ
  /-- A linked inode has been allocated. -/
  linked_lt : ∀ {k i}, links k = some i → i < next
  /-- There are no hard links. -/
  links_inj : ∀ {k k' i}, links k = some i → links k' = some i → k = k'

namespace ByteStore

variable {κ : Type}

/-- A store with no files. -/
def empty : ByteStore κ where
  links _ := none
  data _ := []
  next := 0
  linked_lt h := by cases h
  links_inj h := by cases h

/-- What reading a location from its beginning gives, if it is linked. -/
def read (S : ByteStore κ) (k : κ) : Option Bytes := (S.links k).map S.data

/-- A write through a handle, which moves the handle's offset along. -/
def write (S : ByteStore κ) (f : Handle) (b : Bytes) : ByteStore κ × Handle :=
  ({ S with data := Function.update S.data f.inode
              (writeAt (S.data f.inode) f.offset b) },
    { f with offset := f.offset + b.length })

/-- An inode emptied. -/
def truncate (S : ByteStore κ) (i : ℕ) : ByteStore κ :=
  { S with data := Function.update S.data i [] }

variable [DecidableEq κ]

/-- A location unlinked. The inode keeps its bytes, for whoever still has it
open. -/
def remove (S : ByteStore κ) (k : κ) : ByteStore κ where
  links := Function.update S.links k none
  data := S.data
  next := S.next
  linked_lt {k' i} h := by
    by_cases hk : k' = k
    · rw [hk, Function.update_self] at h
      cases h
    · rw [Function.update_of_ne hk] at h
      exact S.linked_lt h
  links_inj {k₁ k₂ i} h₁ h₂ := by
    have hne : ∀ {k'}, Function.update S.links k none k' = some i →
        S.links k' = some i := by
      intro k' h
      by_cases hk : k' = k
      · rw [hk, Function.update_self] at h
        cases h
      · rwa [Function.update_of_ne hk] at h
    exact S.links_inj (hne h₁) (hne h₂)

/-- A location linked to a fresh, empty inode. -/
def link (S : ByteStore κ) (k : κ) : ByteStore κ where
  links := Function.update S.links k (some S.next)
  data := Function.update S.data S.next []
  next := S.next + 1
  linked_lt {k' i} h := by
    by_cases hk : k' = k
    · rw [hk, Function.update_self] at h
      obtain rfl := Option.some.inj h
      exact Nat.lt_succ_self _
    · rw [Function.update_of_ne hk] at h
      exact Nat.lt_succ_of_lt (S.linked_lt h)
  links_inj {k₁ k₂ i} h₁ h₂ := by
    by_cases hk₁ : k₁ = k <;> by_cases hk₂ : k₂ = k
    · rw [hk₁, hk₂]
    · rw [hk₁, Function.update_self] at h₁
      rw [Function.update_of_ne hk₂] at h₂
      obtain rfl := Option.some.inj h₁
      exact absurd (S.linked_lt h₂) (Nat.lt_irrefl _)
    · rw [hk₂, Function.update_self] at h₂
      rw [Function.update_of_ne hk₁] at h₁
      obtain rfl := Option.some.inj h₂
      exact absurd (S.linked_lt h₁) (Nat.lt_irrefl _)
    · rw [Function.update_of_ne hk₁] at h₁
      rw [Function.update_of_ne hk₂] at h₂
      exact S.links_inj h₁ h₂

/-- **Creating a location**: an existing file is truncated and opened, a
missing one is linked to a fresh inode. Either way the handle starts at the
beginning of an empty file. -/
def create (S : ByteStore κ) (k : κ) : ByteStore κ × Handle :=
  match S.links k with
  | some i => (S.truncate i, ⟨i, 0⟩)
  | none => (S.link k, ⟨S.next, 0⟩)

/-! ## Owners -/

/-- **The handle `f` owns the location `k`, which holds `c`**: the location
is linked to the handle's inode, the inode holds `c`, and the handle stands
at its end. -/
structure Owns (S : ByteStore κ) (k : κ) (f : Handle) (c : Bytes) : Prop where
  /-- The location is linked to the inode of the handle. -/
  linked : S.links k = some f.inode
  /-- The inode holds the bytes. -/
  data_eq : S.data f.inode = c
  /-- The handle stands at the end. -/
  at_end : f.offset = c.length

omit [DecidableEq κ] in
/-- Reading an owned location gives what its owner wrote. -/
theorem Owns.read_eq {S : ByteStore κ} {k : κ} {f : Handle} {c : Bytes}
    (h : S.Owns k f c) : S.read k = some c := by
  rw [read, h.linked, Option.map_some, h.data_eq]

omit [DecidableEq κ] in
/-- Owners of different locations have different inodes. -/
theorem Owns.inode_ne {S : ByteStore κ} {k k' : κ} {f f' : Handle}
    {c c' : Bytes} (h : S.Owns k f c) (h' : S.Owns k' f' c') (hk : k ≠ k') :
    f.inode ≠ f'.inode :=
  fun he => hk (S.links_inj h.linked (he ▸ h'.linked))

omit [DecidableEq κ] in
/-- **An owner appends**: a write through the owning handle leaves it the
owner of its location, with the bytes added. -/
theorem Owns.write_self {S : ByteStore κ} {k : κ} {f : Handle} {c : Bytes}
    (h : S.Owns k f c) (b : Bytes) :
    (S.write f b).1.Owns k (S.write f b).2 (c ++ b) where
  linked := h.linked
  data_eq := by
    show Function.update S.data f.inode
      (writeAt (S.data f.inode) f.offset b) f.inode = c ++ b
    rw [Function.update_self, h.data_eq, h.at_end, writeAt_length]
  at_end := by
    show f.offset + b.length = (c ++ b).length
    rw [h.at_end, List.length_append]

omit [DecidableEq κ] in
/-- A write through another owner's handle changes nothing. -/
theorem Owns.write_other {S : ByteStore κ} {k k' : κ} {f f' : Handle}
    {c c' : Bytes} (h : S.Owns k f c) (h' : S.Owns k' f' c') (hk : k ≠ k')
    (b : Bytes) : (S.write f' b).1.Owns k f c where
  linked := h.linked
  data_eq := by
    show Function.update S.data f'.inode _ f.inode = c
    rw [Function.update_of_ne (h.inode_ne h' hk), h.data_eq]
  at_end := h.at_end

/-- **Creating a location makes its opener the owner** of an empty file. -/
theorem owns_create (S : ByteStore κ) (k : κ) :
    (S.create k).1.Owns k (S.create k).2 [] := by
  unfold create
  cases hl : S.links k with
  | some i => exact ⟨hl, Function.update_self .., rfl⟩
  | none => exact ⟨Function.update_self .., Function.update_self .., rfl⟩

/-- Creating another location changes nothing. -/
theorem Owns.create_other {S : ByteStore κ} {k k' : κ} {f : Handle}
    {c : Bytes} (h : S.Owns k f c) (hk : k ≠ k') :
    (S.create k').1.Owns k f c := by
  unfold create
  cases hl : S.links k' with
  | some i =>
    have hi : f.inode ≠ i := fun he => hk (S.links_inj h.linked (he ▸ hl))
    refine ⟨h.linked, ?_, h.at_end⟩
    show Function.update S.data i [] f.inode = c
    rw [Function.update_of_ne hi, h.data_eq]
  | none =>
    have hi : f.inode ≠ S.next := Nat.ne_of_lt (S.linked_lt h.linked)
    refine ⟨?_, ?_, h.at_end⟩
    · show Function.update S.links k' (some S.next) k = some f.inode
      rw [Function.update_of_ne hk, h.linked]
    · show Function.update S.data S.next [] f.inode = c
      rw [Function.update_of_ne hi, h.data_eq]

/-- Removing another location does not change what a location reads. -/
theorem read_remove_of_ne (S : ByteStore κ) {k k' : κ} (hk : k ≠ k') :
    (S.remove k').read k = S.read k := by
  show (Function.update S.links k' none k).map S.data = _
  rw [Function.update_of_ne hk]
  rfl

end ByteStore
