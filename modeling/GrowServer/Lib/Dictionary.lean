import Mathlib.Data.List.Basic
import Mathlib.Logic.Function.Basic

/-!
# A list of pairs as a dictionary

A dictionary is a partial function from keys to values. A list of pairs stands for one: the
first pair with a key holds its value. Appending a pair defines a key that has no value yet,
and rewriting the first pair with a key gives it another value if it has one.
-/

namespace Dictionary

variable {κ β : Type*} [DecidableEq κ]

def define (d : κ → Option β) (k : κ) (v : β) : κ → Option β :=
  if (d k).isSome then d else Function.update d k (some v)

def redefine (d : κ → Option β) (k : κ) (v : β) : κ → Option β :=
  if (d k).isSome then Function.update d k (some v) else d

def ofList (l : List (κ × β)) : κ → Option β := fun k => l.lookup k

def place (k : κ) (l : List (κ × β)) : ℕ := l.findIdx fun pair => pair.1 = k

theorem ofList_cons (pair : κ × β) (l : List (κ × β)) (k : κ) :
    ofList (pair :: l) k = if k = pair.1 then some pair.2 else ofList l k := by
  obtain ⟨key, value⟩ := pair
  by_cases h : k = key
  · simp [ofList, h]
  · have hne : (k == key) = false := by simpa using h
    simp [ofList, List.lookup_cons, hne, h]

theorem define_apply (d : κ → Option β) (k : κ) (v : β) (k' : κ) :
    define d k v k' = if k' = k then some ((d k).getD v) else d k' := by
  by_cases hk : k' = k
  · subst hk
    cases hold : d k' with
    | none => simp [define, hold]
    | some v' => simp [define, hold]
  · cases hold : d k with
    | none => simp [define, hold, hk]
    | some v' => simp [define, hold, hk]

theorem redefine_apply (d : κ → Option β) (k : κ) (v : β) (k' : κ) :
    redefine d k v k' = if k' = k then (d k).map fun _ => v else d k' := by
  by_cases hk : k' = k
  · subst hk
    cases hold : d k' with
    | none => simp [redefine, hold]
    | some v' => simp [redefine, hold]
  · cases hold : d k with
    | none => simp [redefine, hold, hk]
    | some v' => simp [redefine, hold, hk]

theorem ofList_concat (l : List (κ × β)) (k : κ) (v : β) :
    ofList (l ++ [(k, v)]) = define (ofList l) k v := by
  funext k'
  rw [define_apply]
  induction l with
  | nil => exact ofList_cons (k, v) [] k'
  | cons pair l ih =>
    rw [List.cons_append, ofList_cons, ofList_cons, ofList_cons, ih]
    by_cases hk : k' = k
    · subst hk
      by_cases hhead : k' = pair.1
      · simp [hhead]
      · simp [hhead]
    · simp [hk]

theorem ofList_set (l : List (κ × β)) (k : κ) (v : β) :
    ofList (l.set (place k l) (k, v)) = redefine (ofList l) k v := by
  funext k'
  rw [redefine_apply]
  induction l with
  | nil => simp [ofList]
  | cons pair l ih =>
    rw [place, List.findIdx_cons, ofList_cons, ofList_cons]
    by_cases hk : pair.1 = k
    · subst hk
      by_cases hhead : k' = pair.1
      · simp [ofList_cons, hhead]
      · simp [ofList_cons, hhead]
    · have hplace : l.findIdx (fun pair => decide (pair.1 = k)) = place k l := rfl
      have hk' : k ≠ pair.1 := fun heq => hk heq.symm
      simp only [hk, decide_false, cond_false, List.set_cons_succ, hplace, ofList_cons, ih, hk',
        if_false]
      by_cases hhead : k' = pair.1
      · simp [hhead, hk]
      · simp [hhead]

/-- A key that has a value has the first pair with it. -/
theorem ofList_eq_some {l : List (κ × β)} {k : κ} {v : β} (h : ofList l k = some v) :
    (l.find? fun pair => pair.1 = k) = some (k, v) := by
  induction l with
  | nil => cases h
  | cons pair l ih =>
    rw [ofList_cons] at h
    by_cases hk : k = pair.1
    · rw [if_pos hk] at h
      obtain rfl := Option.some.inj h
      rw [List.find?_cons_of_pos (by simpa using hk.symm), hk]
    · rw [if_neg hk] at h
      rw [List.find?_cons_of_neg (by simpa using fun heq => hk heq.symm), ih h]

theorem ofList_eq_none {l : List (κ × β)} {k : κ} (h : ofList l k = none) :
    ∀ pair ∈ l, pair.1 ≠ k := by
  induction l with
  | nil => simp
  | cons pair l ih =>
    rw [ofList_cons] at h
    by_cases hk : k = pair.1
    · rw [if_pos hk] at h
      cases h
    · rw [if_neg hk] at h
      exact List.forall_mem_cons.mpr ⟨fun heq => hk heq.symm, ih h⟩

end Dictionary
