import Mathlib.Data.List.Basic
import Mathlib.Data.List.DropRight

/-!
# Sending to a full buffered channel by dropping the oldest entry

A producer that must not block on a buffered channel nobody else reads can
loop: send if there is room, otherwise receive (and discard) the oldest entry
and try again.  On a channel with capacity zero the loop never sends.

The loop is run for at most `fuel` passes, `none` being a loop that has not
returned.  With room for one entry, one pass more than the buffer holds is
always enough, and the buffer afterwards holds the newest entries that fit:
over any number of sends, the newest `cap` entries (`List.rtake`) of what it
held and what was sent.
-/

namespace BoundedBuffer

variable {α : Type*}

/-- Send `x` to a buffer of capacity `cap`, dropping the oldest entries while
it is full, for at most `fuel` passes. -/
def sendDroppingOldest (cap : ℕ) (x : α) : ℕ → List α → Option (List α)
  | 0, _ => none
  | fuel + 1, q =>
    if q.length < cap then some (q ++ [x])
    else match q with
      | [] => sendDroppingOldest cap x fuel []
      | _ :: q => sendDroppingOldest cap x fuel q

/-- With room for one entry and enough passes, the send returns the buffer
without its oldest entries and with `x` last. -/
theorem sendDroppingOldest_eq {cap : ℕ} (hcap : 1 ≤ cap) (x : α) :
    ∀ (fuel : ℕ) (q : List α), q.length + 1 ≤ fuel →
      sendDroppingOldest cap x fuel q = some (q.drop (q.length + 1 - cap) ++ [x]) := by
  intro fuel
  induction fuel with
  | zero =>
      intro q hq
      omega
  | succ fuel ih =>
      intro q hq
      by_cases hroom : q.length < cap
      · have hdrop : q.length + 1 - cap = 0 := by omega
        simp [sendDroppingOldest, hroom, hdrop]
      · obtain ⟨y, q', rfl⟩ : ∃ y q', q = y :: q' := by
          cases q with
          | nil =>
              simp at hroom
              omega
          | cons y q' => exact ⟨y, q', rfl⟩
        have hq' : q'.length + 1 ≤ fuel := by
          simp at hq
          omega
        have hlen : (y :: q').length + 1 - cap = (q'.length + 1 - cap) + 1 := by
          simp at hroom ⊢
          omega
        simp only [sendDroppingOldest, hroom, if_false]
        rw [ih q' hq', hlen, List.drop_succ_cons]

/-! ### The newest entries -/

theorem length_rtake (l : List α) (n : ℕ) : (l.rtake n).length = min n l.length := by
  simp only [List.rtake, List.length_drop]
  omega

/-- Keeping the newest entries of a prefix, then the newest of the whole, keeps
the newest of the whole. -/
theorem rtake_append_rtake (l xs : List α) (n : ℕ) :
    (l.rtake n ++ xs).rtake n = (l ++ xs).rtake n := by
  simp only [List.rtake_eq_reverse_take_reverse, List.reverse_append, List.reverse_reverse,
    List.take_append, List.take_take, List.length_reverse]
  rw [Nat.min_eq_left (Nat.sub_le _ _)]

theorem length_rtake_le (l : List α) (n : ℕ) : (l.rtake n).length ≤ n := by
  rw [length_rtake]
  exact Nat.min_le_left _ _

/-- One send and then the rest: the newest entries of all of them. -/
theorem rtake_concat_append (l xs : List α) (x : α) (n : ℕ) :
    ((l ++ [x]).rtake n ++ xs).rtake n = (l ++ x :: xs).rtake n := by
  rw [rtake_append_rtake, List.append_assoc, List.singleton_append]

theorem rtake_of_length_le {l : List α} {n : ℕ} (h : l.length ≤ n) : l.rtake n = l := by
  simp [List.rtake, Nat.sub_eq_zero_of_le h]

/-- A send with room for one entry and enough passes keeps the newest `cap`
entries of the buffer with `x` last. -/
theorem sendDroppingOldest_eq_rtake {cap : ℕ} (hcap : 1 ≤ cap) (x : α) {fuel : ℕ} {q : List α}
    (hfuel : q.length + 1 ≤ fuel) :
    sendDroppingOldest cap x fuel q = some ((q ++ [x]).rtake cap) := by
  rw [sendDroppingOldest_eq hcap x fuel q hfuel, List.rtake, List.length_append,
    List.length_singleton, List.drop_append_of_le_length (by omega)]

/-- On a channel of capacity zero the send never returns. -/
theorem sendDroppingOldest_capacity_zero (x : α) :
    ∀ (fuel : ℕ) (q : List α), sendDroppingOldest 0 x fuel q = none := by
  intro fuel
  induction fuel with
  | zero =>
      intro q
      rfl
  | succ fuel ih =>
      intro q
      cases q with
      | nil => simp [sendDroppingOldest, ih]
      | cons y q => simp [sendDroppingOldest, ih]

end BoundedBuffer
