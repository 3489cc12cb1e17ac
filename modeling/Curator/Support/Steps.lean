import Mathlib.Data.Nat.Notation

/-!
# Routines that run one step at a time

A routine is given by its step function: from a program point and a state it
takes one step, to its next program point or to its result.  Beside other
routines it runs one step at a time, and what the others do between its steps
can change what it finds; run alone, with enough fuel, it computes what its
sequential code computes.

`resume` continues a routine from where a step left it, `run` runs it from a
program point, fuel beyond its return is inert (`resume_of_le`), and a routine
that calls another at one of its program points runs the callee to its end and
goes on from the callee's result (`run_call`).
-/

namespace Steps

variable {π σ ρ : Type}

/-- Continue a routine for at most `fuel` more steps from where a step left
it: at a program point, or returned with its result. -/
def resume (step : π → σ → (π ⊕ ρ) × σ) : (π ⊕ ρ) × σ → ℕ → (π ⊕ ρ) × σ
  | (.inr r, s), _ => (.inr r, s)
  | (.inl p, s), 0 => (.inl p, s)
  | (.inl p, s), n + 1 => resume step (step p s) n

/-- The routine run alone from the program point `p`, for at most `fuel`
steps. -/
def run (step : π → σ → (π ⊕ ρ) × σ) (fuel : ℕ) (p : π) (s : σ) : (π ⊕ ρ) × σ :=
  resume step (.inl p, s) fuel

variable {step : π → σ → (π ⊕ ρ) × σ}

@[simp] theorem resume_inr (r : ρ) (s : σ) (n : ℕ) : resume step (.inr r, s) n = (.inr r, s) := by
  cases n <;> rfl

@[simp] theorem resume_zero (x : (π ⊕ ρ) × σ) : resume step x 0 = x := by
  obtain ⟨_ | _, _⟩ := x <;> rfl

theorem resume_inl_succ (p : π) (s : σ) (n : ℕ) :
    resume step (.inl p, s) (n + 1) = resume step (step p s) n := rfl

theorem run_succ (n : ℕ) (p : π) (s : σ) : run step (n + 1) p s = resume step (step p s) n := rfl

/-- Fuel splits: `m + n` steps are `m` steps, then `n` more. -/
theorem resume_add (m n : ℕ) (x : (π ⊕ ρ) × σ) :
    resume step x (m + n) = resume step (resume step x m) n := by
  induction m generalizing x with
  | zero => rw [Nat.zero_add, resume_zero]
  | succ m ih =>
    obtain ⟨_ | r, s⟩ := x
    · rw [Nat.add_right_comm, resume_inl_succ, resume_inl_succ, ih]
    · simp

/-- Fuel beyond the return is inert. -/
theorem resume_of_le {x : (π ⊕ ρ) × σ} {m n : ℕ} {r : ρ} {s' : σ}
    (h : resume step x m = (.inr r, s')) (hle : m ≤ n) : resume step x n = (.inr r, s') := by
  obtain ⟨k, rfl⟩ := Nat.exists_eq_add_of_le hle
  rw [resume_add, h, resume_inr]

theorem run_of_le {m n : ℕ} {p : π} {s : σ} {r : ρ} {s' : σ} (h : run step m p s = (.inr r, s'))
    (hle : m ≤ n) : run step n p s = (.inr r, s') :=
  resume_of_le h hle

/-- A routine that returns at once. -/
theorem run_one_of_step {p : π} {s : σ} {r : ρ} {s' : σ} (h : step p s = (.inr r, s')) :
    run step 1 p s = (.inr r, s') := by
  rw [run_succ, h, resume_inr]

/-- A step to the next program point, then the rest of the run. -/
theorem run_succ_of_step {n : ℕ} {p p' : π} {s s' : σ} (h : step p s = (.inl p', s')) :
    run step (n + 1) p s = run step n p' s' := by
  rw [run_succ, h]
  rfl

section Call

variable {π' τ ρ' : Type} {callee : π → σ → (π ⊕ ρ) × σ} {caller : π' → τ → (π' ⊕ ρ') × τ}

/-- A caller that, at the program points `wrap p`, runs a step of its callee on
the part `get t` of its state, and goes on from the callee's result `r` as
`next r` says.  Both steps happen as one. -/
structure Calls (caller : π' → τ → (π' ⊕ ρ') × τ) (callee : π → σ → (π ⊕ ρ) × σ)
    (wrap : π → π') (get : τ → σ) (put : τ → σ → τ) (next : ρ → τ → (π' ⊕ ρ') × τ) : Prop where
  step : ∀ p t, caller (wrap p) t =
    match callee p (get t) with
    | (.inl p', x) => (.inl (wrap p'), put t x)
    | (.inr r, x) => next r (put t x)
  get_put : ∀ t x, get (put t x) = x
  put_put : ∀ t x y, put (put t x) y = put t y

variable {wrap : π → π'} {get : τ → σ} {put : τ → σ → τ} {next : ρ → τ → (π' ⊕ ρ') × τ}

/-- A callee that returns `r` within `m` steps, and a caller that returns from
there within `n` more: the caller returns within `m + n` steps; by induction on
the callee's run. -/
theorem run_call (hc : Calls caller callee wrap get put next) :
    ∀ {m n : ℕ} {p : π} {t : τ} {r : ρ} {x : σ} {r' : ρ'} {t' : τ},
      run callee m p (get t) = (.inr r, x) → resume caller (next r (put t x)) n = (.inr r', t') →
      run caller (m + n) (wrap p) t = (.inr r', t')
  | 0, _, _, _, _, _, _, _, hin, _ => by cases hin
  | m + 1, n, p, t, r, x, r', t', hin, hout => by
    rw [run_succ] at hin
    rw [Nat.add_right_comm, run_succ, hc.step]
    rcases hstep : callee p (get t) with ⟨p' | r₀, x₀⟩
    · rw [hstep] at hin
      have hrest : run callee m p' (get (put t x₀)) = (.inr r, x) := by
        rw [hc.get_put]
        exact hin
      have hout' : resume caller (next r (put (put t x₀) x)) n = (.inr r', t') := by
        rw [hc.put_put]
        exact hout
      exact run_call hc hrest hout'
    · rw [hstep, resume_inr] at hin
      simp only [Prod.mk.injEq, Sum.inr.injEq] at hin
      obtain ⟨rfl, rfl⟩ := hin
      exact resume_of_le hout (Nat.le_add_left n m)

end Call

end Steps
