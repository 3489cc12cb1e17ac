import Mathlib.Data.List.Lex
import Mathlib.Algebra.Group.Nat.Defs

/-!
# Zero-padded decimal numerals

The numeral of `n` in base ten, padded on the left with `'0'` to `w`
characters, as a `%0wd` format writes it.  For numbers of at most `w` digits
the numerals have exactly `w` characters, all digits, and their
lexicographic order is the order of the numbers: sorting such numerals as
text sorts the numbers.

The proofs peel off the last digit (`zeroPad_succ`) and compare numerals of
equal length from their last character back (`append_singleton_lt_iff`).
-/

namespace Decimal

/-- `n` in base ten, padded with `'0'` on the left to `w` characters. -/
def zeroPad (w n : ℕ) : List Char :=
  List.replicate (w - (Nat.toDigits 10 n).length) '0' ++ Nat.toDigits 10 n

theorem toDigits_of_ten_le {n : ℕ} (h : 10 ≤ n) :
    Nat.toDigits 10 n = Nat.toDigits 10 (n / 10) ++ [Nat.digitChar (n % 10)] := by
  have hq : 0 < n / 10 := Nat.div_pos h (by decide)
  have hr : n % 10 < 10 := Nat.mod_lt n (by decide)
  have happ := Nat.toDigits_append_toDigits (by decide : 1 < 10) hq hr
  rw [Nat.toDigits_of_lt_base hr, Nat.div_add_mod] at happ
  exact happ.symm

theorem div_ten_lt {w n : ℕ} (hn : n < 10 ^ (w + 1)) : n / 10 < 10 ^ w := by
  apply Nat.div_lt_of_lt_mul
  rwa [Nat.pow_succ, Nat.mul_comm] at hn

theorem zeroPad_one {n : ℕ} (h : n < 10) : zeroPad 1 n = [Nat.digitChar n] := by
  simp [zeroPad, Nat.toDigits_of_lt_base h]

/-- The last character of a padded numeral is its last digit. -/
theorem zeroPad_succ {w : ℕ} (hw : 0 < w) (n : ℕ) :
    zeroPad (w + 1) n = zeroPad w (n / 10) ++ [Nat.digitChar (n % 10)] := by
  by_cases hsmall : n < 10
  · have hdiv : n / 10 = 0 := Nat.div_eq_of_lt hsmall
    have hpad : List.replicate (w - 1) '0' ++ ['0'] = List.replicate w '0' := by
      rw [← List.replicate_succ']
      congr 1
      omega
    simp [zeroPad, Nat.toDigits_of_lt_base hsmall, hdiv, Nat.mod_eq_of_lt hsmall, hpad]
  · rw [zeroPad, zeroPad, toDigits_of_ten_le (by omega), List.length_append,
      List.length_singleton, List.append_assoc]
    congr 2
    omega

theorem length_zeroPad {w n : ℕ} (hw : 0 < w) (hn : n < 10 ^ w) : (zeroPad w n).length = w := by
  have hlen := (Nat.length_toDigits_le_iff (by decide : 1 < 10) hw).mpr hn
  simp only [zeroPad, List.length_append, List.length_replicate]
  omega

/-- Every character of a padded numeral is a digit. -/
theorem isDigit_of_mem_zeroPad {w : ℕ} (hw : 0 < w) :
    ∀ {n : ℕ} {c : Char}, n < 10 ^ w → c ∈ zeroPad w n → c.isDigit = true := by
  induction w, hw using Nat.le_induction with
  | base =>
    intro n c hn hc
    rw [zeroPad_one (by simpa using hn), List.mem_singleton] at hc
    subst hc
    simpa [Nat.isDigit_digitChar] using hn
  | succ w hw ih =>
    intro n c hn hc
    rw [zeroPad_succ hw n, List.mem_append, List.mem_singleton] at hc
    rcases hc with hc | rfl
    · exact ih (div_ten_lt hn) hc
    · simp [Nat.isDigit_digitChar, Nat.mod_lt]

/-- Lists of equal length compare, after one more element each, first by
what stands before it. -/
theorem append_singleton_lt_iff {α : Type*} [LT α] :
    ∀ {a b : List α} {x y : α}, a.length = b.length →
      (a ++ [x] < b ++ [y] ↔ a < b ∨ a = b ∧ x < y)
  | [], [], x, y, _ => by
    simp [List.cons_lt_cons_iff, List.not_lt_nil]
  | c :: a, d :: b, x, y, h => by
    have ih := @append_singleton_lt_iff α _ a b x y (by simpa using h)
    simp only [List.cons_append, List.cons_lt_cons_iff, ih, List.cons.injEq]
    constructor
    · rintro (hcd | ⟨rfl, hab | ⟨rfl, hxy⟩⟩)
      · exact .inl (.inl hcd)
      · exact .inl (.inr ⟨rfl, hab⟩)
      · exact .inr ⟨⟨rfl, rfl⟩, hxy⟩
    · rintro ((hcd | ⟨rfl, hab⟩) | ⟨⟨rfl, rfl⟩, hxy⟩)
      · exact .inl hcd
      · exact .inr ⟨rfl, .inl hab⟩
      · exact .inr ⟨rfl, .inr ⟨rfl, hxy⟩⟩
  | [], _ :: _, _, _, h => by simp at h
  | _ :: _, [], _, _, h => by simp at h

theorem digitChar_lt_digitChar_iff {d e : ℕ} (hd : d < 10) (he : e < 10) :
    Nat.digitChar d < Nat.digitChar e ↔ d < e := by
  have hall : ∀ d < 10, ∀ e < 10, (Nat.digitChar d < Nat.digitChar e ↔ d < e) := by decide
  exact hall d hd e he

/-- Numerals of at most `w` digits are in the order of their numbers. -/
theorem zeroPad_lt_zeroPad_iff {w : ℕ} (hw : 0 < w) :
    ∀ {n m : ℕ}, n < 10 ^ w → m < 10 ^ w → (zeroPad w n < zeroPad w m ↔ n < m) := by
  induction w, hw using Nat.le_induction with
  | base =>
    intro n m hn hm
    have hn' : n < 10 := by simpa using hn
    have hm' : m < 10 := by simpa using hm
    rw [zeroPad_one hn', zeroPad_one hm', List.cons_lt_cons_iff,
      digitChar_lt_digitChar_iff hn' hm']
    simp only [List.not_lt_nil, and_false, or_false]
  | succ w hw ih =>
    intro n m hn hm
    have hn' : n / 10 < 10 ^ w := div_ten_lt hn
    have hm' : m / 10 < 10 ^ w := div_ten_lt hm
    have heq : zeroPad w (n / 10) = zeroPad w (m / 10) ↔ n / 10 = m / 10 := by
      constructor
      · intro h
        by_contra hne
        rcases Nat.lt_or_gt_of_ne hne with hlt | hlt
        · exact List.lt_irrefl _ (h ▸ (ih hn' hm').mpr hlt)
        · exact List.lt_irrefl _ (h ▸ (ih hm' hn').mpr hlt)
      · intro h
        rw [h]
    rw [zeroPad_succ hw n, zeroPad_succ hw m,
      append_singleton_lt_iff ((length_zeroPad hw hn').trans (length_zeroPad hw hm').symm),
      ih hn' hm', heq, digitChar_lt_digitChar_iff (Nat.mod_lt n (by decide))
        (Nat.mod_lt m (by decide))]
    omega

theorem zeroPad_injective {w n m : ℕ} (hw : 0 < w) (hn : n < 10 ^ w) (hm : m < 10 ^ w)
    (h : zeroPad w n = zeroPad w m) : n = m := by
  by_contra hne
  rcases Nat.lt_or_gt_of_ne hne with hlt | hlt
  · exact List.lt_irrefl _ (h ▸ (zeroPad_lt_zeroPad_iff hw hn hm).mpr hlt)
  · exact List.lt_irrefl _ (h ▸ (zeroPad_lt_zeroPad_iff hw hm hn).mpr hlt)

end Decimal
