import GrowServer.Lib.LittleEndian

/-!
# Raw memory blocks

An allocated block is a list of cells; a cell that nothing was stored in has an
unspecified content. Copying fails where it would leave one of the two blocks,
so a program over blocks also tells whether all of its accesses stay inside.
-/

namespace Memory
open LittleEndian

abbrev Block := List (Option UInt8)

/-- A new block of unspecified content. -/
def alloc (n : ℕ) : Block := List.replicate n none

def stored (bs : Bytes) : Block := bs.map some

def memcpy (dst : Block) (offset : ℕ) (src : Block) (n : ℕ) : Option Block :=
  if offset + n ≤ dst.length ∧ n ≤ src.length then
    some (dst.take offset ++ src.take n ++ dst.drop (offset + n))
  else none

theorem alloc_add (m n : ℕ) : alloc (m + n) = alloc m ++ alloc n :=
  List.replicate_append_replicate.symm

@[simp] theorem alloc_length (n : ℕ) : (alloc n).length = n := List.length_replicate

@[simp] theorem stored_length (bs : Bytes) : (stored bs).length = bs.length := List.length_map some

theorem stored_append (as bs : Bytes) : stored (as ++ bs) = stored as ++ stored bs :=
  List.map_append

theorem stored_take (bs : Bytes) (n : ℕ) : (stored bs).take n = stored (bs.take n) :=
  List.map_take.symm

theorem none_not_mem_stored (bs : Bytes) : none ∉ stored bs := by
  unfold stored
  simp

/-- Copying replaces exactly the part of the destination it covers. -/
theorem memcpy_append (before old after src : Block) (n : ℕ) (hold : old.length = n)
    (hsrc : n ≤ src.length) :
    memcpy (before ++ (old ++ after)) before.length src n =
      some (before ++ (src.take n ++ after)) := by
  have hroom : before.length + n ≤ (before ++ (old ++ after)).length := by
    simp only [List.length_append]
    omega
  have hdrop : (before ++ (old ++ after)).drop (before.length + n) = after := by
    rw [← List.drop_drop, List.drop_left, List.drop_left' hold]
  rw [memcpy, if_pos ⟨hroom, hsrc⟩, List.take_left, hdrop, List.append_assoc]

theorem memcpy_front (old after src : Block) (n : ℕ) (hold : old.length = n)
    (hsrc : n ≤ src.length) :
    memcpy (old ++ after) 0 src n = some (src.take n ++ after) :=
  memcpy_append [] old after src n hold hsrc

end Memory
