import Mathlib.Data.List.Basic

/-!
# Searching a sequence for a pattern

The first and the last offset at which a pattern occurs in a list, with `none`
where a C-family library answers `-1`.  Both are structural recursions on the
searched list, so they evaluate by `decide`.

The lemmas locate an occurrence that is known to be the first (respectively
the last) one: a search through a prefix that cannot hold the pattern, and a
search through a suffix that holds it only at its start.
-/

namespace ListSearch

variable {α : Type*} [DecidableEq α]

/-- The offset of the first occurrence of `sub` in `s`. -/
def indexOf (sub : List α) : List α → Option ℕ
  | [] => if sub = [] then some 0 else none
  | c :: s => if sub.isPrefixOf (c :: s) then some 0 else (indexOf sub s).map (· + 1)

/-- The offset of the last occurrence of `sub` in `s`. -/
def lastIndexOf (sub : List α) : List α → Option ℕ
  | [] => if sub = [] then some 0 else none
  | c :: s =>
    match lastIndexOf sub s with
    | some i => some (i + 1)
    | none => if sub.isPrefixOf (c :: s) then some 0 else none

/-! ### The last occurrence -/

theorem lastIndexOf_cons_of_some {sub s : List α} {c : α} {i : ℕ}
    (h : lastIndexOf sub s = some i) : lastIndexOf sub (c :: s) = some (i + 1) := by
  simp [lastIndexOf, h]

/-- An occurrence at the start of a list whose tail does not hold the pattern
is the last one. -/
theorem lastIndexOf_cons_eq_zero {sub s : List α} {c : α}
    (htail : lastIndexOf sub s = none) (hpre : sub.isPrefixOf (c :: s) = true) :
    lastIndexOf sub (c :: s) = some 0 := by
  simp [lastIndexOf, htail, hpre]

/-- The last occurrence in a suffix is the last occurrence in the whole list,
shifted by the length of what stands before it. -/
theorem lastIndexOf_append_of_some {sub t : List α} {i : ℕ}
    (h : lastIndexOf sub t = some i) (pre : List α) :
    lastIndexOf sub (pre ++ t) = some (pre.length + i) := by
  induction pre with
  | nil => simpa using h
  | cons c pre ih =>
      rw [List.cons_append, lastIndexOf_cons_of_some ih, List.length_cons]
      congr 1
      omega

/-- A pattern whose first element does not occur is not found. -/
theorem lastIndexOf_of_head_not_mem {c : α} {sub s : List α} (h : c ∉ s) :
    lastIndexOf (c :: sub) s = none := by
  induction s with
  | nil => simp [lastIndexOf]
  | cons d s ih =>
      have hcd : c ≠ d := fun hcd => h (hcd ▸ List.mem_cons_self)
      have hs : c ∉ s := fun hs => h (List.mem_cons_of_mem d hs)
      simp [lastIndexOf, ih hs, List.isPrefixOf, hcd]

theorem lastIndexOf_singleton_of_not_mem {c : α} {s : List α} (h : c ∉ s) :
    lastIndexOf [c] s = none :=
  lastIndexOf_of_head_not_mem h

/-- A list that starts with the pattern, and holds the pattern's first
element nowhere else, has its last occurrence at its start. -/
theorem lastIndexOf_self_append {c : α} {sub t : List α} (h : c ∉ sub ++ t) :
    lastIndexOf (c :: sub) (c :: (sub ++ t)) = some 0 :=
  lastIndexOf_cons_eq_zero (lastIndexOf_of_head_not_mem h) (by simp [List.isPrefixOf_iff_prefix])

/-- The last separator of `pre ++ c :: name`, when `name` holds none. -/
theorem lastIndexOf_singleton_append {c : α} {name : List α} (h : c ∉ name)
    (pre : List α) : lastIndexOf [c] (pre ++ c :: name) = some pre.length := by
  have hlast : lastIndexOf [c] (c :: name) = some 0 :=
    lastIndexOf_cons_eq_zero (lastIndexOf_singleton_of_not_mem h) (by simp [List.isPrefixOf])
  simpa using lastIndexOf_append_of_some hlast pre

/-! ### The first occurrence -/

/-- A one-element pattern that does not occur is not found. -/
theorem indexOf_singleton_of_not_mem {c : α} {s : List α} (h : c ∉ s) :
    indexOf [c] s = none := by
  induction s with
  | nil => simp [indexOf]
  | cons d s ih =>
      have hcd : c ≠ d := fun hcd => h (hcd ▸ List.mem_cons_self)
      have hs : c ∉ s := fun hs => h (List.mem_cons_of_mem d hs)
      simp [indexOf, ih hs, List.isPrefixOf, hcd]

/-- The first separator of `pre ++ c :: rest`, when `pre` holds none. -/
theorem indexOf_singleton_append {c : α} {pre : List α} (h : c ∉ pre)
    (rest : List α) : indexOf [c] (pre ++ c :: rest) = some pre.length := by
  induction pre with
  | nil => simp [indexOf, List.isPrefixOf]
  | cons d pre ih =>
      have hcd : c ≠ d := fun hcd => h (hcd ▸ List.mem_cons_self)
      have hpre : c ∉ pre := fun hp => h (List.mem_cons_of_mem d hp)
      simp [indexOf, List.isPrefixOf, hcd, ih hpre]

end ListSearch
