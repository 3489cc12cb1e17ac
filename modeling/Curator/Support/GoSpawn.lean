import Mathlib.Data.List.ReduceOption
import Mathlib.Data.List.Perm.Basic

/-!
# One goroutine per message

A dispatcher that starts a goroutine for each message, every goroutine handing
its message to one handler that takes a lock, lets the handler see the
messages in whatever order the goroutines run.  `Pool` keeps each goroutine's
message while it is pending and the messages the handler got, in order.  A run
of one goroutine moves its message from the pool to the log; every order of
the pending messages is the order of some run (`Pool.exists_runs`).

The bridge to a model that keeps its goroutines in a list and changes one of
them at a time is `filterMap_set_perm`: what a list shows through a partial
map changes, up to order, by what the old and the new entry show.
-/

namespace GoSpawn

open scoped List

variable {α β : Type*}

/-- What holds of every entry holds after one is replaced by an entry of
which it holds. -/
theorem forall_mem_set {P : α → Prop} {l : List α} (h : ∀ a ∈ l, P a) (i : ℕ) {b : α} (hb : P b) :
    ∀ a ∈ l.set i b, P a := by
  intro a ha
  rcases List.mem_or_eq_of_mem_set ha with ha | rfl
  · exact h a ha
  · exact hb

/-- Replacing the entry `a` at `i` by `b` changes what the list shows through
`f` by what `a` and `b` show, up to order. -/
theorem filterMap_set_perm [DecidableEq β] (f : α → Option β) {l : List α} {i : ℕ} {a : α}
    (h : l[i]? = some a) (b : α) :
    (l.set i b).filterMap f ++ (f a).toList ~ l.filterMap f ++ (f b).toList := by
  obtain ⟨hi, hget⟩ := List.getElem?_eq_some_iff.mp h
  have hl : l = l.take i ++ a :: l.drop (i + 1) := by
    rw [← hget, ← List.drop_eq_getElem_cons hi, List.take_append_drop]
  have hset : l.set i b = l.take i ++ b :: l.drop (i + 1) := by
    rw [List.set_eq_take_append_cons_drop, if_pos hi]
  rw [hset]
  conv_rhs => rw [hl]
  rw [List.perm_iff_count]
  intro y
  cases hfa : f a <;> cases hfb : f b
  all_goals simp [List.filterMap_append, hfa, hfb, List.count_append, List.count_cons]
  all_goals omega

/-- Goroutines each started to hand one message to a handler: each goroutine's
message, or `none` once it has run; and the messages handed over, in order. -/
structure Pool (α : Type*) where
  slots : List (Option α)
  log : List α

namespace Pool

/-- The messages still to be handed over. -/
def pending (p : Pool α) : List α := p.slots.reduceOption

/-- Goroutine `i` runs, if it is pending, and hands its message over. -/
def run (p : Pool α) (i : ℕ) : Pool α :=
  match p.slots[i]? with
  | some (some x) => ⟨p.slots.set i none, p.log ++ [x]⟩
  | _ => p

theorem run_of_pending {p : Pool α} {i : ℕ} {x : α} (h : p.slots[i]? = some (some x)) :
    p.run i = ⟨p.slots.set i none, p.log ++ [x]⟩ := by
  simp [run, h]

/-- A goroutine that has run, or does not exist, hands nothing over. -/
theorem run_of_not_pending {p : Pool α} {i : ℕ} (h : p.slots[i]? = some none ∨ p.slots[i]? = none) :
    p.run i = p := by
  rcases h with h | h <;> simp [run, h]

/-- Every order of the pending messages is the order in which some run of the
goroutines hands them over; by induction on that order, each message being
taken from a goroutine that still holds it. -/
theorem exists_runs [DecidableEq α] {order : List α} :
    ∀ {p : Pool α}, order ~ p.pending →
      ∃ is : List ℕ, (is.foldl run p).log = p.log ++ order ∧ (is.foldl run p).pending = [] := by
  induction order with
  | nil =>
    intro p hp
    exact ⟨[], by simp, hp.symm.eq_nil⟩
  | cons x rest ih =>
    intro p hp
    have hx : some x ∈ p.slots := List.reduceOption_mem_iff.mp (hp.subset List.mem_cons_self)
    obtain ⟨i, hi⟩ := List.mem_iff_getElem?.mp hx
    have hrun := run_of_pending hi
    have hleft : (p.run i).pending ++ [x] ~ p.pending := by
      rw [hrun]
      simpa [pending, List.reduceOption] using filterMap_set_perm id hi none
    have hrest : rest ~ (p.run i).pending := by
      apply (List.perm_cons x).mp
      exact hp.trans (hleft.symm.trans (List.perm_append_singleton x _))
    obtain ⟨is, hlog, hdone⟩ := ih hrest
    refine ⟨i :: is, ?_, hdone⟩
    rw [List.foldl_cons, hlog, hrun]
    simp

end Pool

end GoSpawn
