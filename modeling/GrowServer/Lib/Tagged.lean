import Mathlib.Data.List.Basic
import Mathlib.Tactic.TypeStar

/-!
# A history of several parties

One list in which every entry says whose it is, and the part of it that is one party's own.
-/

namespace Tagged

variable {ι α : Type*} [DecidableEq ι]

/-- The entries of one party, in order. -/
def own (history : List (ι × α)) (i : ι) : List α :=
  (history.filter fun entry => entry.1 = i).map Prod.snd

theorem mem_own {history : List (ι × α)} {i : ι} {a : α} :
    a ∈ own history i ↔ (i, a) ∈ history := by
  rw [own, List.mem_map]
  constructor
  · intro h
    obtain ⟨⟨j, b⟩, hentry, rfl⟩ := h
    obtain ⟨hmem, hsame⟩ := List.mem_filter.mp hentry
    have hj : j = i := by simpa using hsame
    rwa [← hj]
  · intro h
    exact ⟨(i, a), List.mem_filter.mpr ⟨h, by simp⟩, rfl⟩

theorem own_concat (history : List (ι × α)) (i j : ι) (a : α) :
    own (history ++ [(i, a)]) j = if j = i then own history j ++ [a] else own history j := by
  rw [own, List.filter_append, List.map_append, own]
  by_cases h : j = i
  · rw [if_pos h, List.filter_cons_of_pos (by simp [h])]
    rfl
  · have hne : ¬ i = j := fun heq => h heq.symm
    rw [if_neg h, List.filter_cons_of_neg (by simpa using hne)]
    exact List.append_nil _

theorem own_append (history others : List (ι × α)) (i : ι) :
    own (history ++ others) i = own history i ++ own others i := by
  simp only [own, List.filter_append, List.map_append]

/-- What one party adds is its own, and no other's. -/
theorem own_map (entries : List α) (i j : ι) :
    own (entries.map (Prod.mk i)) j = if j = i then entries else [] := by
  rw [own, List.filter_map, List.map_map]
  by_cases h : j = i
  · rw [if_pos h, List.filter_eq_self.mpr fun a _ => by simp [h]]
    exact List.map_id _
  · have hne : ¬ i = j := fun heq => h heq.symm
    rw [if_neg h, List.filter_eq_nil_iff.mpr fun a _ => by simp [hne]]
    rfl

theorem own_eq_nil {history : List (ι × α)} {i : ι} (h : ∀ entry ∈ history, entry.1 ≠ i) :
    own history i = [] := by
  have hnone : (history.filter fun entry => entry.1 = i) = [] := by
    rw [List.filter_eq_nil_iff]
    intro entry hentry
    simpa using h entry hentry
  rw [own, hnone]
  rfl

end Tagged
