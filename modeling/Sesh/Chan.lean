import Mathlib.Data.List.Basic
import Mathlib.Tactic.Basic

/-!
# Buffered channels

A buffered channel is the list of what was sent and not yet received, never
longer than the capacity. Sending is enabled while there is room, and
receiving while there is something to receive; a sender that hands its
value to a waiting receiver is one that sends and is received from at once.
-/

/-- **A channel of capacity `cap`**: what is buffered, oldest first. -/
structure Chan (α : Type*) (cap : ℕ) where
  /-- What was sent and not yet received. -/
  buf : List α
  /-- No more than the capacity. -/
  length_le : buf.length ≤ cap
  deriving DecidableEq, Repr

namespace Chan

variable {α : Type*} {cap : ℕ}

/-- Nothing is buffered. -/
def empty : Chan α cap := ⟨[], Nat.zero_le cap⟩

/-- Sending a value, `none` where the channel is full. -/
def send (c : Chan α cap) (a : α) : Option (Chan α cap) :=
  if h : c.buf.length < cap then
    some ⟨c.buf ++ [a], by rw [List.length_append]; exact h⟩
  else none

/-- Receiving the oldest value, `none` where nothing is buffered. -/
def recv (c : Chan α cap) : Option (α × Chan α cap) :=
  match c with
  | ⟨[], _⟩ => none
  | ⟨a :: buf, h⟩ => some (a, ⟨buf, Nat.le_of_succ_le h⟩)

/-- What a send adds. -/
theorem buf_of_send {c c' : Chan α cap} {a : α} (h : c.send a = some c') :
    c'.buf = c.buf ++ [a] := by
  unfold send at h
  split at h
  · rw [← Option.some.inj h]
  · cases h

/-- What a receive takes. -/
theorem buf_of_recv {c c' : Chan α cap} {a : α} (h : c.recv = some (a, c')) :
    c.buf = a :: c'.buf := by
  match c, h with
  | ⟨b :: buf, hb⟩, h =>
    obtain ⟨rfl, rfl⟩ := Prod.mk.inj (Option.some.inj h)
    rfl

/-- A channel that is not full can be sent to. -/
theorem exists_send {c : Chan α cap} (h : c.buf.length < cap) (a : α) :
    ∃ c', c.send a = some c' :=
  ⟨_, dif_pos h⟩

/-- A channel with something in it can be received from. -/
theorem exists_recv {c : Chan α cap} (h : c.buf ≠ []) :
    ∃ a c', c.recv = some (a, c') := by
  match c, h with
  | ⟨a :: buf, hb⟩, _ => exact ⟨a, _, rfl⟩

end Chan
