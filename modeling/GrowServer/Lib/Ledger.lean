import Mathlib.Data.List.Perm.Basic
import Mathlib.Tactic.TypeStar

/-!
# Where things are

A list of holders, each of which holds a list of things. What all of them hold follows what
one of them is replaced by.
-/

namespace Ledger
open scoped List

variable {α β : Type*} {f : α → List β}

/-- Replacing one holder trades what it held for what the new one holds. -/
theorem perm_set {l : List α} {k : ℕ} {a : α} (h : l[k]? = some a) (b : α) :
    (f a ++ (l.set k b).flatMap f).Perm (f b ++ l.flatMap f) := by
  induction l generalizing k with
  | nil => cases h
  | cons c l ih =>
    cases k with
    | zero =>
      obtain rfl := Option.some.inj h
      simp only [List.set_cons_zero, List.flatMap_cons]
      rw [← List.append_assoc, ← List.append_assoc]
      exact List.perm_append_comm.append_right _
    | succ k =>
      have hrest := ih h
      simp only [List.set_cons_succ, List.flatMap_cons]
      calc f a ++ (f c ++ (l.set k b).flatMap f)
          ~ f c ++ (f a ++ (l.set k b).flatMap f) := List.perm_append_comm_assoc _ _ _
        _ ~ f c ++ (f b ++ l.flatMap f) := hrest.append_left _
        _ ~ f b ++ (f c ++ l.flatMap f) := List.perm_append_comm_assoc _ _ _

theorem perm_set_of_eq {l : List α} {k : ℕ} {a b : α} (h : l[k]? = some a) (hsame : f b = f a) :
    ((l.set k b).flatMap f).Perm (l.flatMap f) := by
  have hall := perm_set (f := f) h b
  rw [hsame] at hall
  exact (List.perm_append_left_iff (f a)).mp hall

/-- The new holder has one thing more. -/
theorem perm_set_cons {l : List α} {k : ℕ} {a b : α} {x : β} (h : l[k]? = some a)
    (hmore : (f b).Perm (x :: f a)) : ((l.set k b).flatMap f).Perm (x :: l.flatMap f) := by
  have hall : (f a ++ (l.set k b).flatMap f).Perm (f a ++ x :: l.flatMap f) :=
    (perm_set h b).trans ((hmore.append_right _).trans List.perm_middle.symm)
  exact (List.perm_append_left_iff (f a)).mp hall

/-- The new holder has one thing less. -/
theorem perm_set_of_cons {l : List α} {k : ℕ} {a b : α} {x : β} (h : l[k]? = some a)
    (hless : (f a).Perm (x :: f b)) : (l.flatMap f).Perm (x :: (l.set k b).flatMap f) := by
  have hall : (f b ++ l.flatMap f).Perm (f b ++ x :: (l.set k b).flatMap f) :=
    (perm_set h b).symm.trans ((hless.append_right _).trans List.perm_middle.symm)
  exact (List.perm_append_left_iff (f b)).mp hall

/-- The things of the holders in some places. -/
def heldIn (f : α → List β) (places : ℕ → Prop) [DecidablePred places] (l : List α) : List β :=
  (l.zipIdx.filter fun entry => places entry.2).flatMap fun entry => f entry.1

theorem heldIn_perm (places : ℕ → Prop) [DecidablePred places] (l : List α) :
    heldIn f places l ++ heldIn f (fun k => ¬ places k) l ~ l.flatMap f := by
  have hsplit := List.filter_append_perm (fun entry : α × ℕ => decide (places entry.2)) l.zipIdx
  have hall := hsplit.flatMap_right fun entry => f entry.1
  have hnot : (fun entry : α × ℕ => decide (¬ places entry.2)) =
      fun entry => !decide (places entry.2) := by
    funext entry
    exact decide_not
  have hunindexed : (l.zipIdx.flatMap fun entry => f entry.1) = l.flatMap f := by
    rw [← List.flatMap_map, List.zipIdx_map_fst]
  rw [List.flatMap_append, hunindexed] at hall
  rw [heldIn, heldIn, hnot]
  exact hall

end Ledger
