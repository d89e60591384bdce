import Mathlib.Tactic.TypeStar
import Mathlib.Tactic.Basic

/-!
# Runs of a step function

A component is a state type, an action type and a total step function; a run is
the list of the actions taken, in the order in which the parties took them, so
that an interleaving of several parties is one list. `Along P s as` says that
every step of the run `as` from `s` satisfies the step predicate `P`, which sees
the state before the step and the action. The rules below are the induction over
a run, stated once: an invariant that every admitted step preserves holds at
every step, and two step predicates that agree wherever the invariant holds
agree along every run.
-/

namespace RunLogic

variable {σ α : Type*}

def exec (step : σ → α → σ) (s : σ) (as : List α) : σ := as.foldl step s

/-- Every step of the run satisfies `P`. -/
def Along (step : σ → α → σ) (P : σ → α → Prop) : σ → List α → Prop
  | _, [] => True
  | s, a :: as => P s a ∧ Along step P (step s a) as

section Basic
variable (step : σ → α → σ) (P Q : σ → α → Prop)

@[simp] theorem along_cons (s : σ) (a : α) (as : List α) :
    Along step P s (a :: as) ↔ P s a ∧ Along step P (step s a) as := Iff.rfl

instance [∀ s a, Decidable (P s a)] : ∀ s as, Decidable (Along step P s as)
  | _, [] => isTrue trivial
  | s, a :: as =>
    have := instDecidableAlong (step s a) as
    inferInstanceAs (Decidable (P s a ∧ Along step P (step s a) as))

end Basic

section Invariant
variable {step : σ → α → σ} {I : σ → Prop} {E C G : σ → α → Prop}

theorem Along.of_invariant {s : σ} {as : List α} (h0 : I s)
    (hstep : ∀ s a, I s → C s a → I (step s a))
    (hgood : ∀ s a, I s → C s a → G s a) (h : Along step C s as) :
    Along step G s as := by
  induction as generalizing s with
  | nil => trivial
  | cons a as ih =>
    obtain ⟨ha, has⟩ := h
    exact ⟨hgood s a h0 ha, ih (hstep s a h0 ha) has⟩

theorem exec_invariant {s : σ} (as : List α) (h0 : I s) (hstep : ∀ s a, I s → I (step s a)) :
    I (exec step s as) := by
  induction as generalizing s with
  | nil => exact h0
  | cons a as ih => exact ih (hstep s a h0)

/-- Exact condition for a run: where the environment keeps to `E`, and the
condition `C` preserves the invariant and is equivalent to `G` under it, the run
satisfies `G` at every step exactly when it satisfies `C` at every step. -/
theorem along_iff {s : σ} {as : List α} (h0 : I s)
    (hstep : ∀ s a, I s → E s a → C s a → I (step s a))
    (hiff : ∀ s a, I s → E s a → (G s a ↔ C s a)) (hE : Along step E s as) :
    Along step G s as ↔ Along step C s as := by
  induction as generalizing s with
  | nil => exact Iff.rfl
  | cons a as ih =>
    obtain ⟨hEa, hEas⟩ := hE
    rw [along_cons, along_cons, hiff s a h0 hEa]
    exact and_congr_right fun hC => ih (hstep s a h0 hEa hC) hEas

theorem along_true (s : σ) (as : List α) : Along step (fun _ _ => True) s as := by
  induction as generalizing s with
  | nil => trivial
  | cons a as ih => exact ⟨trivial, ih (step s a)⟩

/-- Where the condition leaves the state as it is, a run that satisfies it stays in
its first state. -/
theorem along_fixed_iff {s : σ} {as : List α} (hfix : ∀ a, C s a → step s a = s)
    (hiff : ∀ a, G s a ↔ C s a) : Along step G s as ↔ ∀ a ∈ as, C s a := by
  induction as with
  | nil => exact iff_of_true trivial fun a ha => absurd ha List.not_mem_nil
  | cons a as ih =>
    rw [along_cons, hiff a, List.forall_mem_cons]
    refine and_congr_right fun hC => ?_
    rw [hfix a hC]
    exact ih

end Invariant

end RunLogic
