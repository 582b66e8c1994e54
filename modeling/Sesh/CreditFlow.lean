import Mathlib.Algebra.BigOperators.Fin
import Mathlib.Algebra.Order.BigOperators.Group.Finset
import Sesh.Machine

/-!
# Flow control by credit

A receiver grants its peer a *window*: the peer may send as many symbols as
it has credit for, and gets the credit back when what it sent has been read.
Both sides count. The sender knows how much credit it has left, the receiver
how much it is still willing to take, and the two numbers differ by whatever
is under way: data, and credit.

The receiver alone keeps an account that no peer can upset
(`CreditFlow.Receiver.Holds`): what it would still take, what it holds, and
what was read but not given back, add up to the window it began with. For two
sides that keep to the rules there is a second account
(`CreditFlow.State.Balanced`): the receiver's number is the sender's credit
and everything under way. It says that data in flight always fits
(`Balanced.accept`), that credit in flight never adds up to more than the
window (`Balanced.win_add_le`), and that data arrives as it was sent, stream
by stream.

A side that gives up may drop credit. What is dropped is counted as lost, so
that the accounts stay equations.
-/

namespace CreditFlow

variable {ι α : Type*}

/-! ## Sums over streams -/

section Sums

variable [DecidableEq ι] [Fintype ι]

/-- Changing one term of a sum. -/
theorem sum_update (f : ι → ℕ) (i : ι) (v : ℕ) :
    ∑ j, Function.update f i v j + f i = ∑ j, f j + v := by
  rw [Finset.sum_update_of_mem (Finset.mem_univ i), ← Finset.add_sum_erase _ f (Finset.mem_univ i),
    Finset.sdiff_singleton_eq_erase]
  omega

/-- Changing one list. -/
theorem sum_length_update (f : ι → List α) (i : ι) (v : List α) :
    ∑ j, (Function.update f i v j).length + (f i).length = ∑ j, (f j).length + v.length := by
  have h := sum_update (fun j => (f j).length) i v.length
  rwa [show (fun j => (Function.update f i v j).length)
    = Function.update (fun j => (f j).length) i v.length from
      funext fun j => by by_cases hj : j = i <;> simp [hj]]

end Sums

/-- How many symbols some chunks hold. -/
def size {κ : Type*} (chunks : List (κ × List α)) : ℕ := (chunks.map (fun c => c.2.length)).sum

/-- What some chunks hold for one stream. -/
def dataOf {κ : Type*} [DecidableEq κ] (chunks : List (κ × List α)) (k : κ) : List α :=
  chunks.flatMap (fun c => if c.1 = k then c.2 else [])

section Chunks

variable {κ : Type*}

@[simp] theorem size_nil : size ([] : List (κ × List α)) = 0 := rfl

@[simp] theorem size_cons (k : κ) (d : List α) (chunks : List (κ × List α)) :
    size ((k, d) :: chunks) = d.length + size chunks := rfl

@[simp] theorem size_append (a b : List (κ × List α)) : size (a ++ b) = size a + size b := by
  simp [size]

variable [DecidableEq κ]

@[simp] theorem dataOf_nil (k : κ) : dataOf ([] : List (κ × List α)) k = [] := rfl

@[simp] theorem dataOf_append (a b : List (κ × List α)) (k : κ) :
    dataOf (a ++ b) k = dataOf a k ++ dataOf b k := List.flatMap_append

theorem dataOf_cons (c : κ × List α) (chunks : List (κ × List α)) (k : κ) :
    dataOf (c :: chunks) k = (if c.1 = k then c.2 else []) ++ dataOf chunks k := rfl

end Chunks

/-! ## The receiver -/

/-- **A receiver.** Data that belongs to no stream is taken and thrown
away. -/
@[ext]
structure Receiver (ι α : Type*) where
  /-- How much it is still willing to take. -/
  window : ℕ
  /-- What was taken and is not in a buffer yet, oldest first. -/
  stored : List (Option ι × List α)
  buffer : ι → List α
  /-- What has been read. -/
  got : ι → List α
  /-- What was read and is not given back yet. -/
  owed : ι → ℕ
  /-- What was given back and is not announced yet. -/
  granted : ι → ℕ
  /-- What was thrown away. -/
  wasted : ℕ

namespace Receiver

/-- Nothing has happened yet. -/
def start (W : ℕ) : Receiver ι α := ⟨W, [], fun _ => [], fun _ => [], fun _ => 0, fun _ => 0, 0⟩

/-- Data is taken, where the window allows it. -/
def accept (r : Receiver ι α) (k : Option ι) (d : List α) : Option (Receiver ι α) :=
  if d.length ≤ r.window then
    some { r with window := r.window - d.length, stored := r.stored ++ [(k, d)] }
  else none

variable [Fintype ι]

/-- **The account of the receiver.** -/
def Holds (W : ℕ) (r : Receiver ι α) : Prop :=
  r.window + size r.stored + ∑ i, (r.buffer i).length + ∑ i, r.owed i + r.wasted = W

theorem holds_start (W : ℕ) : Holds W (start W : Receiver ι α) := by
  simp [Holds, start]

variable {W : ℕ} {r r' : Receiver ι α}

theorem Holds.accept {k : Option ι} {d : List α} (h : r.Holds W) (hr : r.accept k d = some r') :
    r'.Holds W := by
  unfold Receiver.accept at hr
  split at hr
  · rw [← Option.some.inj hr]
    simp only [Holds, size_append, size_cons, size_nil] at h ⊢
    omega
  · cases hr

/-- The window grows no larger than it was. -/
theorem Holds.window_add_owed_le (h : r.Holds W) (i : ι) : r.window + r.owed i ≤ W := by
  have hle := Finset.single_le_sum (f := r.owed) (fun _ _ => Nat.zero_le _) (Finset.mem_univ i)
  rw [Holds] at h
  omega

section Moves

variable [DecidableEq ι]

/-- The oldest data that was taken goes to its buffer. -/
def store (r : Receiver ι α) : Option (Receiver ι α) :=
  match r.stored with
  | [] => none
  | (some i, d) :: rest =>
    some { r with stored := rest, buffer := Function.update r.buffer i (r.buffer i ++ d) }
  | (none, d) :: rest => some { r with stored := rest, wasted := r.wasted + d.length }

/-- `n` symbols are read. -/
def read (r : Receiver ι α) (i : ι) (n : ℕ) : Option (Receiver ι α) :=
  if n ≤ (r.buffer i).length then
    some { r with
      buffer := Function.update r.buffer i ((r.buffer i).drop n)
      got := Function.update r.got i (r.got i ++ (r.buffer i).take n)
      owed := Function.update r.owed i (r.owed i + n) }
  else none

/-- What was read is given back. -/
def grant (r : Receiver ι α) (i : ι) : Receiver ι α :=
  { r with
    window := r.window + r.owed i
    owed := Function.update r.owed i 0
    granted := Function.update r.granted i (r.granted i + r.owed i) }

/-- What was given back is announced, or the announcement is dropped. -/
def announce (r : Receiver ι α) (i : ι) : Receiver ι α :=
  { r with granted := Function.update r.granted i 0 }

theorem Holds.store (h : r.Holds W) (hr : r.store = some r') : r'.Holds W := by
  unfold Receiver.store at hr
  split at hr
  · cases hr
  · rename_i i d rest hs
    rw [← Option.some.inj hr]
    have hsum := sum_length_update r.buffer i (r.buffer i ++ d)
    rw [List.length_append] at hsum
    simp only [Holds, hs, size_cons] at h ⊢
    omega
  · rename_i d rest hs
    rw [← Option.some.inj hr]
    simp only [Holds, hs, size_cons] at h ⊢
    omega

theorem Holds.read {i : ι} {n : ℕ} (h : r.Holds W) (hr : r.read i n = some r') :
    r'.Holds W := by
  unfold Receiver.read at hr
  split at hr
  · rename_i hn
    rw [← Option.some.inj hr]
    have hbuf := sum_length_update r.buffer i ((r.buffer i).drop n)
    have howed := sum_update r.owed i (r.owed i + n)
    rw [List.length_drop] at hbuf
    simp only [Holds] at h ⊢
    omega
  · cases hr

theorem Holds.grant (h : r.Holds W) (i : ι) : (r.grant i).Holds W := by
  have howed := sum_update r.owed i 0
  simp only [Holds, Receiver.grant] at h ⊢
  omega

theorem Holds.announce (h : r.Holds W) (i : ι) : (r.announce i).Holds W := h

end Moves

end Receiver

/-! ## Both sides -/

/-- **Both sides of a flow**, and what is under way. -/
structure State (ι α : Type*) where
  /-- The credit of the sender. -/
  win : ℕ
  /-- What its writers have taken from it and not used yet. -/
  reserved : ι → ℕ
  /-- All that was sent. -/
  sent : ι → List α
  /-- Data in flight, oldest first. -/
  wire : List (ι × List α)
  /-- Credit in flight. -/
  credits : List ℕ
  /-- Credit that was dropped. -/
  lost : ℕ
  rcv : Receiver ι α

/-- **What can happen in a flow.** -/
inductive Move (ι α : Type*)
  /-- A writer takes credit. -/
  | reserve (i : ι) (n : ℕ)
  /-- A writer gives up. -/
  | forfeit (i : ι)
  /-- A writer sends as much as it has taken. -/
  | send (i : ι) (d : List α)
  | arrive
  | store
  | read (i : ι) (n : ℕ)
  | grant (i : ι)
  /-- What was given back is announced. -/
  | announce (i : ι)
  /-- The announcement is dropped. -/
  | withhold (i : ι)
  /-- Credit arrives. -/
  | credit

namespace State

variable [DecidableEq ι] {W : ℕ}

/-- The first credit is on its way, and nothing else has happened. -/
def start (W : ℕ) : State ι α where
  win := 0
  reserved := fun _ => 0
  sent := fun _ => []
  wire := []
  credits := [W]
  lost := 0
  rcv := .start W

/-- What a move does, `none` where it is not possible. -/
def step (s : State ι α) : Move ι α → Option (State ι α)
  | .reserve i n =>
    if n ≤ s.win then
      some { s with
        win := s.win - n
        reserved := Function.update s.reserved i (s.reserved i + n) }
    else none
  | .forfeit i =>
    some { s with
      lost := s.lost + s.reserved i
      reserved := Function.update s.reserved i 0 }
  | .send i d =>
    if d.length = s.reserved i then
      some { s with
        reserved := Function.update s.reserved i 0
        sent := Function.update s.sent i (s.sent i ++ d)
        wire := s.wire ++ [(i, d)] }
    else none
  | .arrive =>
    match s.wire with
    | [] => none
    | (i, d) :: wire =>
      -- a chunk of nothing is not stored
      if d.length = 0 then some { s with wire }
      else (s.rcv.accept (some i) d).map (fun rcv => { s with wire, rcv })
  | .store => s.rcv.store.map (fun rcv => { s with rcv })
  | .read i n => (s.rcv.read i n).map (fun rcv => { s with rcv })
  | .grant i => some { s with rcv := s.rcv.grant i }
  | .announce i =>
    some { s with credits := s.credits ++ [s.rcv.granted i], rcv := s.rcv.announce i }
  | .withhold i => some { s with lost := s.lost + s.rcv.granted i, rcv := s.rcv.announce i }
  | .credit =>
    match s.credits with
    | [] => none
    | n :: credits => some { s with win := s.win + n, credits }

variable [Fintype ι]

/-- **The accounts of a flow.** -/
structure Balanced (W : ℕ) (s : State ι α) : Prop where
  /-- What the receiver still takes is the credit of the sender and all that
  is under way. -/
  window : s.rcv.window = s.win + ∑ i, s.reserved i + size s.wire + ∑ i, s.rcv.granted i
    + s.credits.sum + s.lost
  /-- The account of the receiver. -/
  holds : s.rcv.Holds W
  /-- Nothing was thrown away. -/
  wasted : s.rcv.wasted = 0
  /-- Everything that was taken belongs to a stream. -/
  stored : ∀ c ∈ s.rcv.stored, c.1 ≠ none
  /-- **What was sent is what was read, what is held and what is under way**,
  in this order. -/
  sent : ∀ i, s.sent i = s.rcv.got i ++ (s.rcv.buffer i ++ (dataOf s.rcv.stored (some i)
    ++ dataOf s.wire i))

variable {s s' : State ι α}

theorem balanced_start (W : ℕ) : (start W : State ι α).Balanced W where
  window := by simp [start, Receiver.start]
  holds := Receiver.holds_start W
  wasted := rfl
  stored := nofun
  sent := fun _ => rfl

/-- **Data in flight fits in the window.** -/
theorem Balanced.accept (h : s.Balanced W) {i : ι} {d : List α} {wire : List (ι × List α)}
    (hw : s.wire = (i, d) :: wire) : d.length ≤ s.rcv.window := by
  have hwin := h.window
  rw [hw, size_cons] at hwin
  omega

/-- The window and all credit under way are no more than the window was. -/
theorem Balanced.window_le (h : s.Balanced W) : s.rcv.window ≤ W := by
  have hh := h.holds
  rw [Receiver.Holds] at hh
  omega

/-- **Credit in flight never exceeds the window.** -/
theorem Balanced.win_add_le (h : s.Balanced W) {n : ℕ} {credits : List ℕ}
    (hc : s.credits = n :: credits) : s.win + n ≤ W := by
  have hwin := h.window
  have hle := h.window_le
  rw [hc, List.sum_cons] at hwin
  omega

theorem Balanced.reserve {i : ι} {n : ℕ} (h : s.Balanced W)
    (hs : s.step (.reserve i n) = some s') : s'.Balanced W := by
  rw [State.step] at hs
  split at hs
  · rename_i hn
    rw [← Option.some.inj hs]
    have hsum := sum_update s.reserved i (s.reserved i + n)
    have hwin := h.window
    refine ⟨?_, h.holds, h.wasted, h.stored, h.sent⟩
    dsimp only
    omega
  · cases hs

theorem Balanced.forfeit {i : ι} (h : s.Balanced W)
    (hs : s.step (.forfeit i) = some s') : s'.Balanced W := by
  rw [← Option.some.inj hs]
  have hsum := sum_update s.reserved i 0
  have hwin := h.window
  refine ⟨?_, h.holds, h.wasted, h.stored, h.sent⟩
  dsimp only
  omega

theorem Balanced.send {i : ι} {d : List α} (h : s.Balanced W)
    (hs : s.step (.send i d) = some s') : s'.Balanced W := by
  rw [State.step] at hs
  split at hs
  · rename_i hd
    rw [← Option.some.inj hs]
    have hsum := sum_update s.reserved i 0
    have hwin := h.window
    refine ⟨?_, h.holds, h.wasted, h.stored, fun j => ?_⟩
    · dsimp only
      rw [size_append, size_cons, size_nil]
      omega
    · show Function.update s.sent i (s.sent i ++ d) j
        = s.rcv.got j ++ (s.rcv.buffer j ++ (dataOf s.rcv.stored (some j)
          ++ dataOf (s.wire ++ [(i, d)]) j))
      rw [dataOf_append, dataOf_cons, dataOf_nil, List.append_nil]
      by_cases hj : i = j
      · subst hj
        rw [Function.update_self, if_pos rfl, h.sent]
        simp only [List.append_assoc]
      · rw [Function.update_of_ne (Ne.symm hj), if_neg hj, List.append_nil]
        exact h.sent j
  · cases hs

theorem Balanced.arrive (h : s.Balanced W) (hs : s.step .arrive = some s') : s'.Balanced W := by
  rw [State.step] at hs
  split at hs
  · cases hs
  · rename_i i d wire hw
    have hwin := h.window
    have hfits := h.accept hw
    rw [hw, size_cons] at hwin
    have hsent := h.sent
    simp only [hw, dataOf_cons] at hsent
    split at hs
    · rename_i hd
      rw [← Option.some.inj hs]
      obtain rfl := List.length_eq_zero_iff.mp hd
      refine ⟨by dsimp only; omega, h.holds, h.wasted, h.stored,
        fun j => ?_⟩
      have hj := hsent j
      rwa [ite_self, List.nil_append] at hj
    · have hacc : s.rcv.accept (some i) d = some _ := if_pos hfits
      rw [hacc] at hs
      rw [← Option.some.inj hs]
      refine ⟨?_, h.holds.accept hacc, h.wasted, ?_, fun j => ?_⟩
      · dsimp only
        omega
      · intro c hc
        rcases List.mem_append.mp hc with hc | hc
        · exact h.stored c hc
        · rw [List.mem_singleton.mp hc]
          nofun
      · show s.sent j = s.rcv.got j ++ (s.rcv.buffer j
          ++ (dataOf (s.rcv.stored ++ [(some i, d)]) (some j) ++ dataOf wire j))
        rw [dataOf_append, dataOf_cons, dataOf_nil, List.append_nil, hsent j]
        by_cases hj : i = j
        · rw [if_pos hj, if_pos (congrArg some hj), List.append_assoc]
        · rw [if_neg hj, if_neg (fun he => hj (Option.some.inj he)), List.append_nil,
            List.nil_append]

theorem Balanced.store (h : s.Balanced W) (hs : s.step .store = some s') : s'.Balanced W := by
  obtain ⟨rcv, hr, rfl⟩ := Option.map_eq_some_iff.mp hs
  have hholds := h.holds.store hr
  have hwin := h.window
  have hst := h.stored
  have hsent := h.sent
  unfold Receiver.store at hr
  split at hr
  · cases hr
  · rename_i i d rest hstored
    obtain rfl := Option.some.inj hr
    rw [hstored] at hst
    refine ⟨hwin, hholds, h.wasted, fun c hc => hst c (List.mem_cons_of_mem _ hc), fun j => ?_⟩
    have hj := hsent j
    rw [hstored, dataOf_cons] at hj
    show s.sent j = s.rcv.got j ++ (Function.update s.rcv.buffer i (s.rcv.buffer i ++ d) j
      ++ (dataOf rest (some j) ++ dataOf s.wire j))
    rw [hj]
    by_cases hij : i = j
    · subst hij
      rw [if_pos rfl, Function.update_self]
      simp only [List.append_assoc]
    · rw [if_neg (fun he => hij (Option.some.inj he)), Function.update_of_ne (Ne.symm hij),
        List.nil_append]
  · rename_i d rest hstored
    exact absurd rfl (hst (none, d) (by rw [hstored]; exact List.mem_cons_self))

theorem Balanced.read {i : ι} {n : ℕ} (h : s.Balanced W)
    (hs : s.step (.read i n) = some s') : s'.Balanced W := by
  obtain ⟨rcv, hr, rfl⟩ := Option.map_eq_some_iff.mp hs
  have hholds := h.holds.read hr
  unfold Receiver.read at hr
  split at hr
  · obtain rfl := Option.some.inj hr
    refine ⟨h.window, hholds, h.wasted, h.stored, fun j => ?_⟩
    have hj := h.sent j
    show s.sent j = Function.update s.rcv.got i (s.rcv.got i ++ (s.rcv.buffer i).take n) j
      ++ (Function.update s.rcv.buffer i ((s.rcv.buffer i).drop n) j
        ++ (dataOf s.rcv.stored (some j) ++ dataOf s.wire j))
    rw [hj]
    by_cases hij : i = j
    · subst hij
      rw [Function.update_self, Function.update_self, List.append_assoc, ← List.append_assoc
        ((s.rcv.buffer i).take n), List.take_append_drop]
    · rw [Function.update_of_ne (Ne.symm hij), Function.update_of_ne (Ne.symm hij)]
  · cases hr

theorem Balanced.grant {i : ι} (h : s.Balanced W) (hs : s.step (.grant i) = some s') :
    s'.Balanced W := by
  rw [← Option.some.inj hs]
  have hsum := sum_update s.rcv.granted i (s.rcv.granted i + s.rcv.owed i)
  have hwin := h.window
  refine ⟨?_, h.holds.grant i, h.wasted, h.stored, h.sent⟩
  dsimp only [Receiver.grant]
  omega

theorem Balanced.announce {i : ι} (h : s.Balanced W)
    (hs : s.step (.announce i) = some s') : s'.Balanced W := by
  rw [← Option.some.inj hs]
  have hsum := sum_update s.rcv.granted i 0
  have hwin := h.window
  refine ⟨?_, h.holds.announce i, h.wasted, h.stored, h.sent⟩
  dsimp only [Receiver.announce]
  rw [List.sum_append, List.sum_singleton]
  omega

theorem Balanced.withhold {i : ι} (h : s.Balanced W)
    (hs : s.step (.withhold i) = some s') : s'.Balanced W := by
  rw [← Option.some.inj hs]
  have hsum := sum_update s.rcv.granted i 0
  have hwin := h.window
  refine ⟨?_, h.holds.announce i, h.wasted, h.stored, h.sent⟩
  dsimp only [Receiver.announce]
  omega

theorem Balanced.credit (h : s.Balanced W) (hs : s.step .credit = some s') : s'.Balanced W := by
  rw [State.step] at hs
  split at hs
  · cases hs
  · rename_i n credits hc
    rw [← Option.some.inj hs]
    have hwin := h.window
    rw [hc, List.sum_cons] at hwin
    refine ⟨?_, h.holds, h.wasted, h.stored, h.sent⟩
    dsimp only
    omega

/-- **Every move keeps the accounts.** -/
theorem Balanced.step {m : Move ι α} (h : s.Balanced W) (hs : s.step m = some s') :
    s'.Balanced W := by
  cases m with
  | reserve i n => exact h.reserve hs
  | forfeit i => exact h.forfeit hs
  | send i d => exact h.send hs
  | arrive => exact h.arrive hs
  | store => exact h.store hs
  | read i n => exact h.read hs
  | grant i => exact h.grant hs
  | announce i => exact h.announce hs
  | withhold i => exact h.withhold hs
  | credit => exact h.credit hs

end State

/-- **The machine of a flow.** -/
def machine (ι α : Type*) [DecidableEq ι] (W : ℕ) : Machine (State ι α) (Move ι α) :=
  ⟨State.start W, State.step⟩

/-- **The accounts hold in every state of every run.** -/
theorem balanced_of_reachable [DecidableEq ι] [Fintype ι] {W : ℕ} {s : State ι α}
    (h : (machine ι α W).Reachable s) : s.Balanced W :=
  Machine.reachable_rec (P := State.Balanced W) (State.balanced_start W)
    (fun _ _ _ hs h => hs.step h) h

end CreditFlow
