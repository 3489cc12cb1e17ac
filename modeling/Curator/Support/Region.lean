import Mathlib.Logic.Function.Basic

/-!
# At most one thread in a region

A world of many threads gives each of them a program point
(`pcs : ι → π`).  A region of the program, given by its points
(`P : π → Bool`), holds at most one thread when any two threads inside it are
the same one.  A step moves one thread; the region keeps at most one thread
when the thread enters it only from inside, or enters it while it is empty,
and it is empty once its only thread leaves.
-/

namespace Region

variable {ι π : Type*} [DecidableEq ι]

/-- At most one thread is at a point of `P`. -/
def AtMostOne (P : π → Bool) (pcs : ι → π) : Prop :=
  ∀ i j, P (pcs i) → P (pcs j) → i = j

/-- No thread is at a point of `P`. -/
def Empty (P : π → Bool) (pcs : ι → π) : Prop :=
  ∀ i, P (pcs i) = false

variable {P : π → Bool} {pcs : ι → π} {i : ι} {p : π}

/-- A thread that is in the region after its move was in it before. -/
theorem AtMostOne.update (h : AtMostOne P pcs) (hp : P p → P (pcs i)) :
    AtMostOne P (Function.update pcs i p) := by
  intro j k hj hk
  by_cases hji : j = i
  · by_cases hki : k = i
    · rw [hji, hki]
    · subst hji
      rw [Function.update_self] at hj
      rw [Function.update_of_ne hki] at hk
      exact h j k (hp hj) hk
  · rw [Function.update_of_ne hji] at hj
    by_cases hki : k = i
    · subst hki
      rw [Function.update_self] at hk
      exact h j k hj (hp hk)
    · rw [Function.update_of_ne hki] at hk
      exact h j k hj hk

/-- A thread enters an empty region. -/
theorem AtMostOne.update_of_empty (h : Empty P pcs) : AtMostOne P (Function.update pcs i p) := by
  have honly : ∀ j, P (Function.update pcs i p j) → j = i := by
    intro j hj
    by_contra hji
    rw [Function.update_of_ne hji, h j] at hj
    exact Bool.false_ne_true hj
  intro j k hj hk
  rw [honly j hj, honly k hk]

/-- A thread outside the region that moves leaves it as empty as it was. -/
theorem Empty.of_update (h : Empty P (Function.update pcs i p)) (hi : P (pcs i) = false) :
    Empty P pcs := by
  intro j
  by_cases hji : j = i
  · rw [hji, hi]
  · have hj := h j
    rwa [Function.update_of_ne hji] at hj

theorem Empty.update (h : Empty P pcs) (hp : P p = false) : Empty P (Function.update pcs i p) := by
  intro j
  by_cases hji : j = i
  · rw [hji, Function.update_self, hp]
  · rw [Function.update_of_ne hji, h j]

/-- The region is empty once the only thread that may be in it moves out. -/
theorem Empty.update_of_only (h : ∀ j, j ≠ i → P (pcs j) = false) (hp : P p = false) :
    Empty P (Function.update pcs i p) := by
  intro j
  by_cases hji : j = i
  · rw [hji, Function.update_self, hp]
  · rw [Function.update_of_ne hji, h j hji]

end Region
