import Mathlib.Data.List.Basic
import Mathlib.Tactic.TypeStar

/-!
# First-in first-out channels

The reference for a queue between two parties: what was sent, what was delivered
and what is still pending, with the law that the last two make up the first as a
field, so that a channel that loses, repeats or reorders a message cannot be built.
-/

namespace Fifo

variable {α : Type*}

structure Channel (α : Type*) where
  sent : List α
  delivered : List α
  pending : List α
  exact : delivered ++ pending = sent

namespace Channel

def empty : Channel α := ⟨[], [], [], rfl⟩

def send (c : Channel α) (a : α) : Channel α where
  sent := c.sent ++ [a]
  delivered := c.delivered
  pending := c.pending ++ [a]
  exact := by rw [← List.append_assoc, c.exact]

def deliver (c : Channel α) : Channel α where
  sent := c.sent
  delivered := c.delivered ++ c.pending.take 1
  pending := c.pending.drop 1
  exact := by rw [List.append_assoc, List.take_append_drop, c.exact]

theorem delivered_prefix (c : Channel α) : c.delivered <+: c.sent := ⟨c.pending, c.exact⟩

/-! ### A receiver that can get stuck -/

/-- What a receiver has seen that takes a message from the channel unless it is stuck on it:
each message up to the first it is stuck on once and in order, and that one over and over. -/
structure Seen (stuck : α → Prop) (c : Channel α) (seen : List α) : Prop where
  passed : ∀ a ∈ c.delivered, ¬ stuck a
  rest : ∃ again, seen = c.delivered ++ again ∧ ∀ a ∈ again, c.pending.head? = some a ∧ stuck a

section Seen
variable {stuck : α → Prop} {c : Channel α} {seen : List α}

theorem seen_empty : Seen stuck empty [] where
  passed a ha := by cases ha
  rest := ⟨[], rfl, fun a ha => by cases ha⟩

theorem Seen.send (h : Seen stuck c seen) (a : α) : Seen stuck (c.send a) seen where
  passed := h.passed
  rest := by
    obtain ⟨again, hseen, hagain⟩ := h.rest
    refine ⟨again, hseen, ?_⟩
    intro b hb
    obtain ⟨hhead, hstuck⟩ := hagain b hb
    obtain ⟨pending, hpending⟩ := List.head?_eq_some_iff.mp hhead
    refine ⟨?_, hstuck⟩
    show (c.pending ++ [a]).head? = some b
    rw [hpending]
    rfl

theorem Seen.deliver (h : Seen stuck c seen) {a : α} {pending : List α}
    (hpending : c.pending = a :: pending) (ha : ¬ stuck a) :
    Seen stuck c.deliver (seen ++ [a]) := by
  have hdelivered : c.deliver.delivered = c.delivered ++ [a] := by
    simp [Channel.deliver, hpending]
  refine ⟨?_, [], ?_, fun b hb => by cases hb⟩
  · intro b hb
    rw [hdelivered] at hb
    rcases List.mem_append.mp hb with hold | hnew
    · exact h.passed b hold
    · rwa [List.mem_singleton.mp hnew]
  · obtain ⟨again, hseen, hagain⟩ := h.rest
    cases again with
    | nil => rw [hdelivered, hseen, List.append_nil, List.append_nil]
    | cons b again =>
      obtain ⟨hhead, hstuck⟩ := hagain b (List.mem_cons_self ..)
      rw [hpending] at hhead
      exact absurd (Option.some.inj hhead ▸ hstuck) ha

theorem Seen.again (h : Seen stuck c seen) {a : α} (hhead : c.pending.head? = some a)
    (ha : stuck a) : Seen stuck c (seen ++ [a]) where
  passed := h.passed
  rest := by
    obtain ⟨again, hseen, hagain⟩ := h.rest
    refine ⟨again ++ [a], by rw [hseen, List.append_assoc], ?_⟩
    intro b hb
    rcases List.mem_append.mp hb with hold | hnew
    · exact hagain b hold
    · rw [List.mem_singleton.mp hnew]
      exact ⟨hhead, ha⟩

theorem Seen.mem_sent (h : Seen stuck c seen) {a : α} (ha : a ∈ seen) : a ∈ c.sent := by
  obtain ⟨again, hseen, hagain⟩ := h.rest
  rw [hseen] at ha
  rw [← c.exact]
  rcases List.mem_append.mp ha with hdelivered | hagain'
  · exact List.mem_append_left _ hdelivered
  · exact List.mem_append_right _ (List.mem_of_mem_head? (hagain a hagain').1)

/-- Of the messages of one kind, of which it is stuck on none, a receiver sees each once and in
order. -/
theorem Seen.filter_prefix (h : Seen stuck c seen) {p : α → Bool}
    (hsent : ∀ a ∈ c.sent, p a → ¬ stuck a) : seen.filter p <+: c.sent.filter p := by
  obtain ⟨again, hseen, hagain⟩ := h.rest
  have hnone : again.filter p = [] := by
    rw [List.filter_eq_nil_iff]
    intro a ha hp
    have hmem : a ∈ seen := hseen ▸ List.mem_append_right _ ha
    exact hsent a (h.mem_sent hmem) hp (hagain a ha).2
  rw [hseen, List.filter_append, hnone, List.append_nil]
  exact c.delivered_prefix.filter p

/-- A receiver that meets nothing it is stuck on sees each message once and in order. -/
theorem Seen.prefix_sent (h : Seen stuck c seen) (hsent : ∀ a ∈ c.sent, ¬ stuck a) :
    seen <+: c.sent := by
  have hall := h.filter_prefix (p := fun _ => true) fun a ha _ => hsent a ha
  rwa [List.filter_true, List.filter_true] at hall

end Seen

end Channel

end Fifo
