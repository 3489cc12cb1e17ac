import Mathlib.Data.List.Induction

/-!
# Reachable states of a labelled transition system

A system is an initial state together with a labelled step relation.  This
module packages the induction that every safety argument of the development
uses: an invariant that holds initially and is preserved by every step holds
in every reachable state.

Deterministic components, whose next state is a function of the current state
and the label, are systems too (`System.ofFun`); for them the reachable states
are exactly the results of folding a finite list of labels, so a statement
about "every sequence of calls" and a statement about "every reachable state"
say the same thing.
-/

namespace TransitionSystem

/-- A labelled transition system with a single initial state. -/
structure System (σ : Type*) (ε : Type*) where
  init : σ
  step : σ → ε → σ → Prop

variable {σ ε : Type*}

/-- States reachable from the initial state by finitely many steps. -/
inductive Reachable (S : System σ ε) : σ → Prop
  | init : Reachable S S.init
  | step {s t : σ} (e : ε) : Reachable S s → S.step s e t → Reachable S t

/-- A predicate that holds initially and is preserved by every step. -/
structure Inductive (S : System σ ε) (P : σ → Prop) : Prop where
  init : P S.init
  step : ∀ s e t, P s → S.step s e t → P t

/-- An inductive predicate holds in every reachable state. -/
theorem Reachable.of_inductive {S : System σ ε} {P : σ → Prop}
    (hP : Inductive S P) {s : σ} (hs : Reachable S s) : P s := by
  induction hs with
  | init => exact hP.init
  | step e _ hst ih => exact hP.step _ e _ ih hst

/-- The system of a deterministic step function. -/
def System.ofFun (init : σ) (f : σ → ε → σ) : System σ ε where
  init := init
  step s e t := t = f s e

/-- The states reached by a deterministic system are the folds of finite
label sequences over its step function. -/
theorem reachable_ofFun_iff {init : σ} {f : σ → ε → σ} {s : σ} :
    Reachable (System.ofFun init f) s ↔ ∃ es : List ε, s = es.foldl f init := by
  constructor
  · intro hs
    induction hs with
    | init => exact ⟨[], rfl⟩
    | step e _ hst ih =>
        obtain ⟨es, rfl⟩ := ih
        refine ⟨es ++ [e], ?_⟩
        rw [List.foldl_append]
        exact hst
  · rintro ⟨es, rfl⟩
    induction es using List.reverseRecOn with
    | nil => exact Reachable.init
    | append_singleton es e ih =>
        rw [List.foldl_append]
        exact Reachable.step e ih rfl

/-- Every fold of a label sequence over a deterministic step function is
reachable. -/
theorem reachable_foldl {init : σ} {f : σ → ε → σ} (es : List ε) :
    Reachable (System.ofFun init f) (es.foldl f init) :=
  reachable_ofFun_iff.mpr ⟨es, rfl⟩

/-- Folding more labels over a reachable state of a deterministic system
reaches a state again. -/
theorem Reachable.foldl {init : σ} {f : σ → ε → σ} {s : σ}
    (hs : Reachable (System.ofFun init f) s) (es : List ε) :
    Reachable (System.ofFun init f) (es.foldl f s) := by
  induction es generalizing s with
  | nil => exact hs
  | cons e es ih => exact ih (Reachable.step e hs rfl)

/-- A predicate that every step from a reachable state keeps: a run that
reaches it never leaves it. -/
def Stable (S : System σ ε) (P : σ → Prop) : Prop :=
  ∀ s e t, Reachable S s → P s → S.step s e t → P t

/-- Over every run of a deterministic system from a reachable state in a
stable predicate, the predicate keeps holding. -/
theorem Stable.foldl {init : σ} {f : σ → ε → σ} {P : σ → Prop}
    (hP : Stable (System.ofFun init f) P) {s : σ} (hs : Reachable (System.ofFun init f) s)
    (hp : P s) (es : List ε) : P (es.foldl f s) := by
  induction es generalizing s with
  | nil => exact hp
  | cons e es ih => exact ih (Reachable.step e hs rfl) (hP s e _ hs hp rfl)

end TransitionSystem
