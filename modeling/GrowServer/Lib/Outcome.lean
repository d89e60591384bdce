import Mathlib.Tactic.Basic

/-!
# Programs that fail, up to one excluded failure

When does a program complete, given that it does not fail in one particular way?
`CompletesIff e m P` says that, unless `m` fails with `e`, it completes exactly
when `P` holds; `ValueOr e m v` says that `m` has the value `v` or fails with `e`
and in no other way. The rules follow the program, so the condition of a program
is the conjunction of the conditions of its parts along the path it takes.
-/

namespace Outcome

universe u v
variable {ε : Type u} {α β : Type v} {e : ε}

def CompletesIff (e : ε) (m : Except ε α) (P : Prop) : Prop :=
  m ≠ .error e → ((∃ a, m = .ok a) ↔ P)

def ValueOr (e : ε) (m : Except ε α) (v : α) : Prop := m = .ok v ∨ m = .error e

/-- The program does not fail at all. -/
def Completes (m : Except ε α) : Prop := ∃ a, m = .ok a

theorem bind_eq_ok {m : Except ε α} {f : α → Except ε β} {b : β} :
    (m >>= f) = .ok b ↔ ∃ a, m = .ok a ∧ f a = .ok b := by
  cases m with
  | error e' =>
    refine iff_of_false ?_ ?_
    · intro h
      cases h
    · intro h
      obtain ⟨a, ha, -⟩ := h
      cases ha
  | ok a =>
    constructor
    · intro h
      exact ⟨a, rfl, h⟩
    · intro h
      obtain ⟨a', ha, hb⟩ := h
      rw [Except.ok.inj ha]
      exact hb

theorem map_eq_ok {m : Except ε α} {g : α → β} {b : β} :
    m.map g = .ok b ↔ ∃ a, m = .ok a ∧ g a = b := by
  have hbind : m.map g = m >>= fun a => .ok (g a) := by
    cases m with
    | error e' => rfl
    | ok a => rfl
  rw [hbind, bind_eq_ok]
  simp only [Except.ok.injEq]

theorem ValueOr.map {m : Except ε α} {v : α} (hm : ValueOr e m v) (g : α → β) :
    ValueOr e (m >>= fun a => Pure.pure (g a)) (g v) := by
  rcases hm with rfl | rfl
  · exact Or.inl rfl
  · exact Or.inr rfl

theorem CompletesIff.ok (a : α) : CompletesIff e (.ok a) True :=
  fun _ => iff_of_true ⟨a, rfl⟩ trivial

theorem CompletesIff.congr {m : Except ε α} {P Q : Prop} (hm : CompletesIff e m P) (h : P ↔ Q) :
    CompletesIff e m Q := fun hne => (hm hne).trans h

theorem CompletesIff.bind {m : Except ε α} {f : α → Except ε β} {P Q : Prop}
    (hm : CompletesIff e m P) (hf : ∀ a, m = .ok a → CompletesIff e (f a) Q) :
    CompletesIff e (m >>= f) (P ∧ Q) := by
  intro hne
  cases m with
  | error e' =>
    have hm' : (.error e' : Except ε α) ≠ .error e := by
      intro heq
      rw [heq] at hne
      exact hne rfl
    have hP : ¬ P := by
      intro hp
      obtain ⟨a, ha⟩ := (hm hm').mpr hp
      cases ha
    refine iff_of_false ?_ fun h => hP h.1
    intro h
    obtain ⟨b, hb⟩ := h
    cases hb
  | ok a =>
    have hP : P := (hm nofun).mp ⟨a, rfl⟩
    have hrest : (∃ b, f a = .ok b) ↔ Q := hf a rfl hne
    exact hrest.trans (and_iff_right hP).symm

/-- A part that has a value or fails in the excluded way can be taken to have it. -/
theorem CompletesIff.bind_value {m : Except ε α} {f : α → Except ε β} {v : α} {Q : Prop}
    (hm : ValueOr e m v) (hf : CompletesIff e (f v) Q) : CompletesIff e (m >>= f) Q := by
  rcases hm with rfl | rfl
  · exact hf
  · intro hne
    exact absurd rfl hne

theorem CompletesIff.ite {c : Prop} [Decidable c] {m m' : Except ε α} {P Q : Prop}
    (hm : c → CompletesIff e m P) (hm' : ¬ c → CompletesIff e m' Q) :
    CompletesIff e (if c then m else m') ((c → P) ∧ (¬ c → Q)) := by
  by_cases hc : c
  · rw [if_pos hc]
    exact (hm hc).congr ⟨fun hp => ⟨fun _ => hp, fun h => absurd hc h⟩, fun h => h.1 hc⟩
  · rw [if_neg hc]
    exact (hm' hc).congr ⟨fun hq => ⟨fun h => absurd h hc, fun _ => hq⟩, fun h => h.2 hc⟩

theorem Completes.ok (a : α) : Completes (.ok a : Except ε α) := ⟨a, rfl⟩

/-- A part that has the value `v` exactly where `P` holds, and no other value. -/
theorem completes_bind_iff {m : Except ε α} {f : α → Except ε β} {P : Prop} {v : α}
    (hm : ∀ a, m = .ok a ↔ P ∧ v = a) : Completes (m >>= f) ↔ P ∧ Completes (f v) := by
  constructor
  · intro h
    obtain ⟨b, hb⟩ := h
    obtain ⟨a, ha, hb⟩ := bind_eq_ok.mp hb
    obtain ⟨hP, rfl⟩ := (hm a).mp ha
    exact ⟨hP, b, hb⟩
  · intro h
    obtain ⟨hP, b, hb⟩ := h
    exact ⟨b, bind_eq_ok.mpr ⟨v, (hm v).mpr ⟨hP, rfl⟩, hb⟩⟩

end Outcome
