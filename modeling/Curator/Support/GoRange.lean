import Mathlib.Data.List.Basic

/-!
# Goroutines started from a `range` loop

`for _, v := range xs { go func() { body(v) }() }` starts one goroutine per
item of `xs`, the range expression being evaluated once.  Before Go 1.22, and
still for code built outside a module that declares a later version, the loop
has a single variable `v`, assigned at each iteration, and the closures
capture that variable, not its value: each goroutine reads `v` when it runs.

`RangeGo` is such a loop with its goroutines interleaved in any order: the
loop's next iteration, or one pending goroutine reading the variable.  Every
goroutine reads the item of its own iteration or of a later one
(`Invariant.ran`), none is lost or run twice (`Invariant.count`), and once the
loop is over each goroutine still pending reads the last item
(`runGoroutine_of_done`).
-/

namespace GoRange

/-- The loop over `items`: the iterations done, the loop variable, the
goroutines not yet run (each by the iteration that started it), and those
that ran, each with the value it read. -/
structure RangeGo (α : Type*) where
  items : List α
  index : ℕ
  var : Option α
  pending : List ℕ
  ran : List (ℕ × α)
  deriving DecidableEq, Repr

variable {α : Type*}

namespace RangeGo

/-- The loop before its first iteration. -/
def start (items : List α) : RangeGo α := ⟨items, 0, none, [], []⟩

/-- The next iteration: assign the variable and start a goroutine. -/
def iterate (r : RangeGo α) : RangeGo α :=
  match r.items[r.index]? with
  | some x => { r with index := r.index + 1, var := some x, pending := r.pending ++ [r.index] }
  | none => r

/-- The `k`-th pending goroutine runs and reads the variable: its iteration
and the value it read, and the loop after it. -/
def runGoroutine (r : RangeGo α) (k : ℕ) : Option (ℕ × α) × RangeGo α :=
  match r.pending[k]?, r.var with
  | some i, some x => (some (i, x), { r with pending := r.pending.eraseIdx k, ran := r.ran ++ [(i, x)] })
  | _, _ => (none, r)

/-- The loop is over. -/
def Done (r : RangeGo α) : Prop := r.items.length ≤ r.index

instance (r : RangeGo α) : Decidable r.Done := inferInstanceAs (Decidable (_ ≤ _))

@[simp] theorem iterate_items (r : RangeGo α) : r.iterate.items = r.items := by
  unfold RangeGo.iterate
  split <;> rfl

@[simp] theorem iterate_ran (r : RangeGo α) : r.iterate.ran = r.ran := by
  unfold RangeGo.iterate
  split <;> rfl

@[simp] theorem runGoroutine_items (r : RangeGo α) (k : ℕ) : (r.runGoroutine k).2.items = r.items := by
  unfold RangeGo.runGoroutine
  split <;> rfl

/-- What holds of the loop whatever the interleaving: the variable holds the
item of the last iteration; the pending goroutines were started by iterations
done; each goroutine that ran read the item of its iteration or of a later
one; and every iteration started one goroutine, pending or run. -/
structure Invariant (r : RangeGo α) : Prop where
  var : r.var = if r.index = 0 then none else r.items[r.index - 1]?
  index_le : r.index ≤ r.items.length
  pending : ∀ i ∈ r.pending, i < r.index
  ran : ∀ p ∈ r.ran, ∃ j, p.1 ≤ j ∧ r.items[j]? = some p.2
  count : r.pending.length + r.ran.length = r.index

variable {r : RangeGo α}

theorem invariant_start (items : List α) : (start items).Invariant where
  var := rfl
  index_le := Nat.zero_le _
  pending _ h := by cases h
  ran _ h := by cases h
  count := rfl

theorem Invariant.iterate (h : r.Invariant) : r.iterate.Invariant := by
  unfold RangeGo.iterate
  split
  · next x hx =>
    have hlt : r.index < r.items.length := (List.getElem?_eq_some_iff.mp hx).1
    refine ⟨by simp [hx], hlt, fun i hi => ?_, h.ran, ?_⟩
    · rcases List.mem_append.mp hi with hi | hi
      · exact Nat.lt_succ_of_lt (h.pending i hi)
      · rw [List.mem_singleton.mp hi]
        exact Nat.lt_succ_self _
    · simp only [List.length_append, List.length_singleton]
      have := h.count
      omega
  · exact h

/-- A goroutine reads the item of the last iteration done, which is its own
or a later one. -/
theorem Invariant.runGoroutine_read (h : r.Invariant) {k : ℕ} {p : ℕ × α}
    (hp : (r.runGoroutine k).1 = some p) :
    r.pending[k]? = some p.1 ∧ 0 < r.index ∧ r.items[r.index - 1]? = some p.2 ∧ p.1 ≤ r.index - 1 := by
  unfold RangeGo.runGoroutine at hp
  split at hp
  · next i x hi hx =>
    cases hp
    have hpos : 0 < r.index := Nat.lt_of_le_of_lt (Nat.zero_le _) (h.pending i (List.mem_of_getElem? hi))
    have hvar := h.var
    rw [if_neg (Nat.pos_iff_ne_zero.mp hpos), hx] at hvar
    exact ⟨hi, hpos, hvar.symm, Nat.le_pred_of_lt (h.pending i (List.mem_of_getElem? hi))⟩
  · cases hp

/-- A goroutine that ran leaves the others pending and is recorded with what
it read. -/
theorem runGoroutine_of_some {k : ℕ} {p : ℕ × α} (hp : (r.runGoroutine k).1 = some p) :
    (r.runGoroutine k).2 = { r with pending := r.pending.eraseIdx k, ran := r.ran ++ [p] } := by
  unfold RangeGo.runGoroutine at hp ⊢
  split at hp
  · next i x _ _ =>
    cases hp
    rfl
  · cases hp

/-- With no `k`-th pending goroutine, nothing runs. -/
theorem runGoroutine_of_none {k : ℕ} (hp : (r.runGoroutine k).1 = none) : (r.runGoroutine k).2 = r := by
  unfold RangeGo.runGoroutine at hp ⊢
  split at hp
  · cases hp
  · rfl

theorem Invariant.runGoroutine (h : r.Invariant) (k : ℕ) : (r.runGoroutine k).2.Invariant := by
  cases hrun : (r.runGoroutine k).1 with
  | none =>
    rw [runGoroutine_of_none hrun]
    exact h
  | some p =>
    obtain ⟨hi, -, hread, hle⟩ := h.runGoroutine_read hrun
    have hk : k < r.pending.length := (List.getElem?_eq_some_iff.mp hi).1
    rw [runGoroutine_of_some hrun]
    refine ⟨h.var, h.index_le, fun i hi' => h.pending i (List.mem_of_mem_eraseIdx hi'), ?_, ?_⟩
    · intro q hq
      rcases List.mem_append.mp hq with hq | hq
      · exact h.ran q hq
      · rw [List.mem_singleton.mp hq]
        exact ⟨r.index - 1, hle, hread⟩
    · simp only [List.length_eraseIdx_of_lt hk, List.length_append, List.length_singleton]
      have := h.count
      omega

/-- Once the loop is over, every goroutine still pending reads the last
item. -/
theorem runGoroutine_of_done (h : r.Invariant) (hdone : r.Done) {k : ℕ} {p : ℕ × α}
    (hp : (r.runGoroutine k).1 = some p) : r.items.getLast? = some p.2 := by
  obtain ⟨-, hpos, hread, -⟩ := h.runGoroutine_read hp
  have hindex : r.index = r.items.length := Nat.le_antisymm h.index_le hdone
  rw [List.getLast?_eq_getElem?, ← hindex]
  exact hread

end RangeGo

end GoRange
