import Curator.Recipes.Atomic

/-!
# The register behind `DistributedAtomicValue`

Called one at a time, an atomic value is meant to be a register: it holds the
last value written, and nothing before the first write.  `Initialize(x)`
writes `x` exactly when nothing was written, `ForceSet(x)` and `TrySet(x)`
write `x`, `CompareAndSet(e, x)` writes `x` exactly when the register holds
`e`, and `Get()` answers what the register holds, nil when it is empty.

On a store where the parent of the node is present, the recipe refines this
register on every sequence of calls in which `Initialize` is handed the
framework's `defaultData` (`runCalls_refines`): `Initialize` writes that
data and not its argument, and on any other argument the two part.
-/

namespace Curator

/-- The register's answer to one call, and what it holds afterwards. -/
def registerCall (r : Option Bytes) : AtomicCall → AtomicAnswer × Option Bytes
  | .get => (.postValue (r.getD []), r)
  | .forceSet x => (.done, some x)
  | .compareAndSet e x =>
    match r with
    | some d => if e = d then (.succeeded true, some x) else (.succeeded false, r)
    | none => (.succeeded false, none)
  | .trySet x => (.succeeded true, some x)
  | .initializeValue x =>
    match r with
    | none => (.succeeded true, some x)
    | some _ => (.succeeded false, r)

/-- The register's answers to calls made one at a time. -/
def registerRun : Option Bytes → List AtomicCall → List AtomicAnswer × Option Bytes
  | r, [] => ([], r)
  | r, c :: cs =>
    let a := registerCall r c
    let rest := registerRun a.2 cs
    (a.1 :: rest.1, rest.2)

namespace DistributedAtomicValue

/-- What the store holds for the recipe, read as the register. -/
def register (v : DistributedAtomicValue) (st : Store) : Option Bytes :=
  (st.lookup v.path).map ZNode.data

section Refinement

variable {v : DistributedAtomicValue} {st : Store}

theorem register_set {n : ZNode} (h : st.lookup v.path = some n) (x : Bytes) {version : ℤ}
    (hv : Store.versionMatches version n = true) :
    v.register (st.set v.path x version).2 = some x := by
  simp [register, (Store.set_of_matches x h hv).2]

theorem register_create (hparent : (st.lookup (parentOf v.path)).isSome)
    (h : st.lookup v.path = none) (x : Bytes) :
    v.register (st.create v.path x .persistent).2 = some x := by
  simp [register, (Store.create_of_absent x hparent h).2]

/-- One call of the recipe on a missing node is the register's call on the
empty register, and leaves the parent in place. -/
theorem call_refines_of_absent (hparent : (st.lookup (parentOf v.path)).isSome)
    (hn : st.lookup v.path = none) (env : AtomicEnv) (fuel : ℕ) (c : AtomicCall)
    (hc : ∀ x, c = .initializeValue x → x = v.defaultData) :
    ∃ st', v.call env (fuel + 1) st c = some ((registerCall none c).1, st') ∧
      v.register st' = (registerCall none c).2 ∧ (st'.lookup (parentOf v.path)).isSome := by
  have hr : v.register st = none := by simp [register, hn]
  cases c with
  | get => exact ⟨st, by simp [call, get_of_absent hn, registerCall], hr, hparent⟩
  | forceSet x =>
    exact ⟨_, by simp [call, forceSet_of_absent hparent hn, registerCall],
      register_create hparent hn x, Store.create_isSome_lookup hparent _ _ _⟩
  | compareAndSet e x =>
    exact ⟨st, by simp [call, compareAndSet_of_absent hn, AtomicAnswer.ofResult, registerCall],
      hr, hparent⟩
  | trySet x =>
    have htry := trySet_of_first (tryOnce_of_absent hparent hn x .empty) env fuel
    exact ⟨_, by simp [call, htry, AtomicAnswer.ofResult, registerCall],
      register_create hparent hn x, Store.create_isSome_lookup hparent _ _ _⟩
  | initializeValue x =>
    obtain rfl := hc x rfl
    exact ⟨_, by simp [call, initializeValue_of_absent hparent hn, registerCall],
      register_create hparent hn _, Store.create_isSome_lookup hparent _ _ _⟩

/-- One call of the recipe on a present node is the register's call on the
node's data, and leaves the parent in place. -/
theorem call_refines_of_present (hparent : (st.lookup (parentOf v.path)).isSome)
    {n : ZNode} (hn : st.lookup v.path = some n) (env : AtomicEnv) (fuel : ℕ) (c : AtomicCall) :
    ∃ st', v.call env (fuel + 1) st c = some ((registerCall (some n.data) c).1, st') ∧
      v.register st' = (registerCall (some n.data) c).2 ∧
      (st'.lookup (parentOf v.path)).isSome := by
  have hr : v.register st = some n.data := by simp [register, hn]
  cases c with
  | get => exact ⟨st, by simp [call, get_of_present hn, registerCall], hr, hparent⟩
  | forceSet x =>
    exact ⟨_, by simp [call, forceSet_of_present hn, registerCall],
      register_set hn x (Store.versionMatches_any n), Store.set_isSome_lookup hparent _ _ _⟩
  | compareAndSet e x =>
    by_cases he : e = n.data
    · exact ⟨(st.set v.path x n.stat.version).2, by simp [call, compareAndSet_of_present hn, he,
          AtomicAnswer.ofResult, registerCall],
        by simp [registerCall, he, register_set hn x (Store.versionMatches_stat n)],
        Store.set_isSome_lookup hparent _ _ _⟩
    · exact ⟨st, by simp [call, compareAndSet_of_present hn, he, AtomicAnswer.ofResult,
          registerCall], by simp [registerCall, he, hr], hparent⟩
  | trySet x =>
    have htry := trySet_of_first (tryOnce_of_present hn x .empty) env fuel
    exact ⟨_, by simp [call, htry, AtomicAnswer.ofResult, registerCall],
      register_set hn x (Store.versionMatches_stat n), Store.set_isSome_lookup hparent _ _ _⟩
  | initializeValue x =>
    exact ⟨st, by simp [call, initializeValue_of_present hparent (by simp [hn]), registerCall],
      hr, hparent⟩

/-- One call of the recipe is the register's call. -/
theorem call_refines (hparent : (st.lookup (parentOf v.path)).isSome) (env : AtomicEnv)
    (fuel : ℕ) (c : AtomicCall) (hc : ∀ x, c = .initializeValue x → x = v.defaultData) :
    ∃ st', v.call env (fuel + 1) st c = some ((registerCall (v.register st) c).1, st') ∧
      v.register st' = (registerCall (v.register st) c).2 ∧
      (st'.lookup (parentOf v.path)).isSome := by
  cases hn : st.lookup v.path with
  | none =>
    have hr : v.register st = none := by simp [register, hn]
    rw [hr]
    exact call_refines_of_absent hparent hn env fuel c hc
  | some n =>
    have hr : v.register st = some n.data := by simp [register, hn]
    rw [hr]
    exact call_refines_of_present hparent hn env fuel c

/-- Calls made one at a time answer as the register does, as long as every
`Initialize` is handed the framework's `defaultData`. -/
theorem runCalls_refines (env : AtomicEnv) (fuel : ℕ) (calls : List AtomicCall) :
    ∀ (st : Store), (st.lookup (parentOf v.path)).isSome →
      (∀ x, .initializeValue x ∈ calls → x = v.defaultData) →
      ∃ st', v.runCalls env (fuel + 1) st calls = some ((registerRun (v.register st) calls).1, st') ∧
        v.register st' = (registerRun (v.register st) calls).2 := by
  induction calls with
  | nil =>
    intro st _ _
    exact ⟨st, rfl, rfl⟩
  | cons c cs ih =>
    intro st hparent hinit
    obtain ⟨st₁, hcall, hreg, hparent₁⟩ := call_refines hparent env fuel c
      (fun x hx => hinit x (hx ▸ List.mem_cons_self))
    obtain ⟨st₂, hrun, hreg₂⟩ := ih st₁ hparent₁
      (fun x hx => hinit x (List.mem_cons_of_mem c hx))
    rw [hreg] at hrun hreg₂
    refine ⟨st₂, ?_, hreg₂⟩
    simp [runCalls, hcall, hrun, registerRun]

end Refinement

/-- On a missing node, `Initialize(value)` answers true and the `Get()` after
it answers the framework's `defaultData`, whatever `value` was. -/
theorem initializeValue_then_get {v : DistributedAtomicValue} {st : Store}
    (hparent : (st.lookup (parentOf v.path)).isSome) (habsent : st.lookup v.path = none)
    (env : AtomicEnv) (fuel : ℕ) (value : Bytes) :
    (v.runCalls env fuel st [.initializeValue value, .get]).map Prod.fst =
      some [.succeeded true, .postValue v.defaultData] := by
  have hnode : (st.create v.path v.defaultData .persistent).2.lookup v.path =
      some ⟨v.defaultData, 0⟩ := by
    simp [(Store.create_of_absent v.defaultData hparent habsent).2]
  simp [runCalls, call, initializeValue_of_absent hparent habsent, get_of_present hnode]

end DistributedAtomicValue

/-- With the builder's default `defaultData` (nil) and the node `/v` missing,
`Initialize([1])` answers true and the `Get()` after it answers nil, where
the register answers `[1]`. -/
theorem initializeValue_writes_defaultData :
    let v : DistributedAtomicValue := ⟨"/v".toList, [], newRetryOneTime 0, none⟩
    let env : AtomicEnv := ⟨fun _ => 0, fun _ => 0, .ok false⟩
    (v.runCalls env 1 Store.empty [.initializeValue [1], .get]).map Prod.fst =
        some [.succeeded true, .postValue []] ∧
      (registerRun (v.register Store.empty) [.initializeValue [1], .get]).1 =
        [.succeeded true, .postValue [1]] := by
  intro v env
  exact ⟨DistributedAtomicValue.initializeValue_then_get (by decide) (by decide) env 1 [1],
    by decide⟩

end Curator
