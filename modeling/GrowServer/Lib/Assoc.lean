import Mathlib.Data.List.AList

/-!
# The size of an association list

How many keys an association list holds after an insertion and after a removal,
and the lookup form of what it holds.
-/

namespace Assoc

variable {α : Type*} {β : α → Type*} [DecidableEq α]

omit [DecidableEq α] in
theorem length_entries_eq_keys (m : AList β) : m.entries.length = m.keys.length :=
  (List.length_map _).symm

theorem mem_of_lookup {m : AList β} {a : α} {b : β a} (h : m.lookup a = some b) : a ∈ m := by
  rw [← AList.lookup_isSome, h]
  rfl

theorem length_insert_of_lookup_none {m : AList β} {a : α} (b : β a) (h : m.lookup a = none) :
    (m.insert a b).entries.length = m.entries.length + 1 := by
  rw [AList.entries_insert_of_notMem (AList.lookup_eq_none.mp h), List.length_cons]

theorem length_insert_of_mem {m : AList β} {a : α} (b : β a) (h : a ∈ m) :
    (m.insert a b).entries.length = m.entries.length := by
  have hlen := List.length_erase_of_mem (AList.mem_keys.mp h)
  have hpos := List.length_pos_of_mem (AList.mem_keys.mp h)
  rw [length_entries_eq_keys, length_entries_eq_keys, AList.keys_insert, List.length_cons]
  omega

theorem length_erase_of_mem {m : AList β} {a : α} (h : a ∈ m) :
    (m.erase a).entries.length + 1 = m.entries.length := by
  have hlen := List.length_erase_of_mem (AList.mem_keys.mp h)
  have hpos := List.length_pos_of_mem (AList.mem_keys.mp h)
  rw [length_entries_eq_keys, length_entries_eq_keys, AList.keys_erase]
  omega

theorem length_insert_congr {γ : α → Type*} {m : AList β} {m' : AList γ} {a : α} (b : β a)
    (c : γ a) (hnone : m.lookup a = none ↔ m'.lookup a = none)
    (h : m.entries.length = m'.entries.length) :
    (m.insert a b).entries.length = (m'.insert a c).entries.length := by
  cases hfound : m'.lookup a with
  | none =>
    rw [length_insert_of_lookup_none _ (hnone.mpr hfound), length_insert_of_lookup_none _ hfound, h]
  | some c' =>
    have hmem : a ∈ m := by
      rw [← AList.lookup_isSome, ← Option.ne_none_iff_isSome]
      exact fun heq => Option.some_ne_none c' (hfound.symm.trans (hnone.mp heq))
    rw [length_insert_of_mem _ hmem, length_insert_of_mem _ (mem_of_lookup hfound), h]

/-- What is found under a key, and what is left without it, is all there is. -/
theorem entries_perm_of_lookup {m : AList β} {a : α} {b : β a} (h : m.lookup a = some b) :
    m.entries.Perm (⟨a, b⟩ :: (m.erase a).entries) := by
  obtain ⟨b', before, after, -, hsplit, herase⟩ :=
    List.exists_of_kerase (AList.mem_keys.mp (mem_of_lookup h))
  have hmem : (⟨a, b'⟩ : Sigma β) ∈ m.entries := by
    rw [hsplit]
    exact List.mem_append_right before (List.mem_cons_self ..)
  obtain rfl : b = b' := Option.some.inj (h.symm.trans (AList.mem_lookup_iff.mpr hmem))
  have hrest : (m.erase a).entries = before ++ after := herase
  rw [hrest, hsplit]
  exact List.perm_middle

end Assoc
