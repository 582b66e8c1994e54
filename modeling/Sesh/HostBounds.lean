import Sesh.Hosts
import Sesh.Refinement

/-!
# The bounds of the host list

While it runs the hosts, `main` (`main.go`) reads the host list at three
places: `SerialRun` and `ParallelRun` slice it from the start to the end they
are given, and with `--check` `main` itself reads its first host. The bounds
come from the check, from the offset it leaves, and from the degree, and the
list may be empty.

`accessOps` records what is read, in order, until something is out of range
– there the program panics. Every range but that of the check is cut to the
list, so nothing is ever out of range except with `--check` on an empty list
(`host_accesses_in_bounds_iff`).
-/

/-- An access to the host list. -/
inductive Access
  | slice (start stop : ℤ)
  | index (i : ℤ)
  deriving DecidableEq, Repr

/-- An access is in bounds of a list of `n` hosts. -/
def Access.InBounds (n : ℕ) : Access → Prop
  | .slice start stop => 0 ≤ start ∧ start ≤ stop ∧ stop ≤ n
  | .index i => 0 ≤ i ∧ i < n

instance (n : ℕ) : DecidablePred (Access.InBounds n)
  | .slice _ _ => inferInstanceAs (Decidable (_ ∧ _ ∧ _))
  | .index _ => inferInstanceAs (Decidable (_ ∧ _))

/-- A slice that is in bounds is one that does not panic. -/
theorem Access.isSome_goSlice_iff {α : Type} (xs : List α) (start stop : ℤ) :
    (goSlice xs start stop).isSome = true ↔ (slice start stop).InBounds xs.length := by
  unfold goSlice
  split
  · exact iff_of_true rfl ‹_›
  · exact iff_of_false Bool.false_ne_true ‹_›

/-- The first host can be read where the index is in bounds. -/
theorem Access.isSome_head?_iff {α : Type} (xs : List α) :
    xs.head?.isSome = true ↔ (index 0).InBounds xs.length := by
  cases xs with
  | nil => exact iff_of_false Bool.false_ne_true (fun h => lt_irrefl _ h.2)
  | cons x xs => exact iff_of_true rfl ⟨le_refl 0, Int.natCast_pos.mpr (Nat.succ_pos _)⟩

/-- **What was read of the host list**, and whether that was the end. -/
structure AccessLog where
  /-- The accesses, in order. -/
  accesses : List Access
  /-- The last one was out of range. -/
  panicked : Bool
  deriving DecidableEq, Repr

namespace AccessLog

/-- Nothing yet. -/
def empty : AccessLog := ⟨[], false⟩

/-- An access to a list of `n` hosts, if the program is still running. -/
def access (n : ℕ) (log : AccessLog) (a : Access) : AccessLog :=
  if log.panicked then log else ⟨log.accesses ++ [a], !decide (a.InBounds n)⟩

/-- Accesses in bounds are made one after the other. -/
theorem foldl_access {n : ℕ} {as : List Access} (h : ∀ a ∈ as, a.InBounds n)
    (done : List Access) : as.foldl (access n) ⟨done, false⟩ = ⟨done ++ as, false⟩ := by
  induction as generalizing done with
  | nil => rw [List.foldl_nil, List.append_nil]
  | cons a as ih =>
    obtain ⟨ha, has⟩ := List.forall_mem_cons.mp h
    have hstep : access n ⟨done, false⟩ a = ⟨done ++ [a], false⟩ := by
      show (⟨done ++ [a], !decide (a.InBounds n)⟩ : AccessLog) = _
      rw [decide_eq_true ha]
      rfl
    rw [List.foldl_cons, hstep, ih has, List.append_assoc]
    rfl

end AccessLog

/-- The accesses of a call: the check reads the first host twice for its
prompt and once for the login. -/
def Call.accesses : Call → List Access
  | .serial start stop => [.slice start stop]
  | .check => [.index 0, .index 0, .index 0]
  | .greet => []
  | .parallel start stop => [.slice start stop]

/-- **A call that comes back has read the list within its bounds**: these
are the accesses of the runs. -/
theorem Call.inBounds_of_call {env : ParallelEnv} {work : ℕ → List Write}
    {hosts : List GoString} {greeting : GoString} {k : Call} {c c' : Console}
    (h : (consoleOps work hosts greeting (runParallel env work hosts)).call c k = some c') :
    ∀ a ∈ k.accesses, a.InBounds hosts.length := by
  intro a ha
  cases k with
  | serial start stop =>
    obtain ⟨arr, hslice, -⟩ := Option.map_eq_some_iff.mp h
    rw [List.mem_singleton.mp ha, ← Access.isSome_goSlice_iff, hslice]
    rfl
  | parallel start stop =>
    obtain ⟨r, hrun, -⟩ := Option.map_eq_some_iff.mp h
    obtain ⟨arr, hslice, -⟩ := Option.bind_eq_some_iff.mp hrun
    rw [List.mem_singleton.mp ha, ← Access.isSome_goSlice_iff, hslice]
    rfl
  | greet => exact absurd ha List.not_mem_nil
  | check =>
    obtain ⟨host, hhead, -⟩ := Option.map_eq_some_iff.mp h
    obtain rfl : a = .index 0 := by simpa [Call.accesses] using ha
    rw [← Access.isSome_head?_iff, hhead]
    rfl

/-- The operations of `main` that record what they read of `n` hosts. -/
def accessOps (n : ℕ) : RunOps AccessLog where
  serialRun start stop log :=
    some ((Call.serial start stop).accesses.foldl (AccessLog.access n) log)
  parallelRun start stop log :=
    some ((Call.parallel start stop).accesses.foldl (AccessLog.access n) log)
  check log := some (Call.check.accesses.foldl (AccessLog.access n) log)
  greet log := Call.greet.accesses.foldl (AccessLog.access n) log

theorem accessOps_call (n : ℕ) (log : AccessLog) (k : Call) :
    (accessOps n).call log k = some (k.accesses.foldl (AccessLog.access n) log) := by
  cases k <;> rfl

/-- The accesses of calls are those of each, one after the other. -/
theorem foldlM_accessOps (n : ℕ) (ks : List Call) (log : AccessLog) :
    ks.foldlM (accessOps n).call log
      = some ((ks.flatMap Call.accesses).foldl (AccessLog.access n) log) := by
  induction ks generalizing log with
  | nil => rfl
  | cons k ks ih =>
    rw [List.foldlM_cons, accessOps_call, List.flatMap_cons, List.foldl_append]
    exact ih _

/-- Every access of the calls is in bounds, if there is a host to check. -/
theorem inBounds_of_mem_calls {flags : RunFlags} {n : ℕ} {rs : List (ℤ × ℤ)}
    (hb : Batches (flags.degree n) n flags.hostOffset rs)
    (hn : flags.pause = true → 1 ≤ n) {a : Access}
    (ha : a ∈ (flags.calls n rs).flatMap Call.accesses) : a.InBounds n := by
  obtain ⟨k, hk, ha⟩ := List.mem_flatMap.mp ha
  have hrange := RunFlags.range_mem_calls hb (RunFlags.hostOffset_le hn) hk
  cases k with
  | serial start stop =>
    rw [List.mem_singleton.mp ha]
    exact hrange (start, stop) rfl
  | parallel start stop =>
    rw [List.mem_singleton.mp ha]
    exact hrange (start, stop) rfl
  | greet => exact absurd ha List.not_mem_nil
  | check =>
    have hpause : flags.pause = true := by
      by_contra hp
      unfold RunFlags.calls RunFlags.restCalls at hk
      rw [if_neg hp, List.nil_append] at hk
      split at hk
      · simp at hk
      · simp at hk
    obtain rfl : a = .index 0 := by simpa [Call.accesses] using ha
    exact ⟨le_refl 0, by exact_mod_cast hn hpause⟩

/-- With `--check` on an empty list the first slice is the end of the run. -/
theorem runHosts_check_empty (flags : RunFlags) (hp : flags.pause = true) {fuel : ℕ}
    (hf : 0 < fuel) :
    runHosts (accessOps 0) flags 0 fuel AccessLog.empty = some ⟨[.slice 0 1], true⟩ := by
  obtain ⟨fuel, rfl⟩ := Nat.exists_eq_add_one_of_ne_zero (Nat.ne_of_gt hf)
  have hdegree : effectiveDegree flags.parallelDegree 0 1 = -1 := by
    unfold effectiveDegree
    rw [if_pos (by omega)]
    rfl
  rw [runHosts, if_pos hp]
  show runRest (accessOps 0) flags 0 (fuel + 1) 1 ⟨[.slice 0 1], true⟩ = _
  rw [runRest, hdegree]
  cases flags.parallel <;> rfl

/-- **When the host list is read within its bounds.** For any host text and
any combination of `--check`, `-r` and `--parallel-degree`, the run comes to
its end or to an access out of range, and every slice of the host list and
every read of its first host is in bounds exactly when the text has a host
or `--check` is not given. -/
theorem host_accesses_in_bounds_iff (text : GoString) (flags : RunFlags) :
    ∃ log : AccessLog,
      (∀ fuel, (parseHostsFromString text).length < fuel →
        runHosts (accessOps (parseHostsFromString text).length) flags
          (parseHostsFromString text).length fuel AccessLog.empty = some log)
      ∧ ((∀ a ∈ log.accesses, a.InBounds (parseHostsFromString text).length)
        ↔ (flags.pause = true → parseHostsFromString text ≠ [])) := by
  generalize parseHostsFromString text = hosts
  by_cases hcheck : flags.pause = true → hosts ≠ []
  · have hn : flags.pause = true → 1 ≤ hosts.length :=
      fun hp => List.length_pos_of_ne_nil (hcheck hp)
    have hoff := RunFlags.hostOffset_le hn
    obtain ⟨rs, hb⟩ := exists_batches flags.parallelDegree hoff
    have hd := effectiveDegree_nonneg flags.parallelDegree hoff
    have hlen := hb.length_le
    have hnonneg := flags.hostOffset_nonneg
    have hall := fun a => inBounds_of_mem_calls (a := a) hb hn
    refine ⟨⟨(flags.calls hosts.length rs).flatMap Call.accesses, false⟩, fun fuel hf => ?_,
      iff_of_true hall hcheck⟩
    rw [RunFlags.runHosts_eq_foldlM (accessOps hosts.length) hb hd (by omega),
      foldlM_accessOps, AccessLog.empty, AccessLog.foldl_access hall]
    rfl
  · obtain ⟨hp, hnil⟩ := Classical.not_imp.mp hcheck
    obtain rfl : hosts = [] := not_not.mp hnil
    refine ⟨⟨[.slice 0 1], true⟩, fun fuel hf => runHosts_check_empty flags hp hf,
      iff_of_false (fun h => ?_) hcheck⟩
    exact absurd (h _ (List.mem_singleton_self _)) (by decide)

/-- A text of separators and `--check`: the first slice is out of range. -/
theorem check_slices_empty_list :
    runHosts (accessOps (parseHostsFromString ", \n".toList).length) ⟨false, 0, true⟩
        (parseHostsFromString ", \n".toList).length 1 AccessLog.empty
      = some ⟨[.slice 0 1], true⟩ := by
  decide
