import Mathlib.Data.List.Basic

/-!
# A growing sequence by its history

A sequence that grows at its end and is written in place, as the log of what was
stored: the value at a position is the one stored there last. `Holds l log` says that
the list `l` is the sequence of the log; each kind of store has one rule.
-/

namespace StoreLog

variable {α : Type*}

inductive Store (α : Type*) where
  | append (v : α)
  | replace (i : ℕ) (v : α)
  deriving DecidableEq

/-- How many values the log appends; the newest store is the first. -/
def length : List (Store α) → ℕ
  | [] => 0
  | .append _ :: log => length log + 1
  | .replace _ _ :: log => length log

/-- What was stored last at a position of the sequence. -/
def latest : List (Store α) → ℕ → Option α
  | [], _ => none
  | .append v :: log, j => if j = length log then some v else latest log j
  | .replace i v :: log, j => if j = i ∧ i < length log then some v else latest log j

def Holds (l : List α) (log : List (Store α)) : Prop :=
  l.length = length log ∧ ∀ j, l[j]? = latest log j

theorem holds_nil : Holds ([] : List α) [] := ⟨rfl, fun _ => rfl⟩

section Rules
variable {l : List α} {log : List (Store α)}

theorem Holds.append (h : Holds l log) (v : α) : Holds (l ++ [v]) (.append v :: log) := by
  obtain ⟨hlength, hlatest⟩ := h
  constructor
  · rw [List.length_append, hlength]
    rfl
  · intro j
    rw [latest, ← hlength, ← hlatest j]
    by_cases hj : j < l.length
    · rw [if_neg (by omega), List.getElem?_append_left hj]
    · by_cases hlast : j = l.length
      · rw [if_pos hlast, hlast, List.getElem?_concat_length]
      · have hafter : (l ++ [v]).length ≤ j := by
          rw [List.length_append, List.length_singleton]
          omega
        rw [if_neg hlast, List.getElem?_eq_none hafter, List.getElem?_eq_none (by omega)]

theorem Holds.replace (h : Holds l log) {i : ℕ} (hi : i < l.length) (v : α) :
    Holds (l.set i v) (.replace i v :: log) := by
  obtain ⟨hlength, hlatest⟩ := h
  constructor
  · rw [List.length_set, hlength]
    rfl
  · intro j
    rw [latest, ← hlength, ← hlatest j]
    by_cases hj : j = i
    · rw [if_pos ⟨hj, hi⟩, hj, List.getElem?_set_self hi]
    · rw [if_neg (fun h => hj h.1), List.getElem?_set_ne (fun heq => hj heq.symm)]

theorem Holds.replace_outside (h : Holds l log) {i : ℕ} (hi : l.length ≤ i) (v : α) :
    Holds l (.replace i v :: log) := by
  obtain ⟨hlength, hlatest⟩ := h
  refine ⟨hlength, ?_⟩
  intro j
  rw [latest, if_neg (by omega), hlatest j]

end Rules

end StoreLog
