import Mathlib.Data.List.Infix
import Mathlib.Tactic.TypeStar

/-!
# Splitting a list at a separator

`pieces d s` is what lies between the occurrences of `d` in `s`, found from the
left and without overlap; `tokens d s` leaves out the empty pieces. `pieces` is
a single pass over `s`, `pieces_eq` is its description by the leftmost
occurrence, which is how a search-and-cut loop computes it, and for a separator
of one element it is `List.splitOn`.
-/

namespace Split

variable {α : Type*} [DecidableEq α]

/-- Position of the leftmost occurrence of `d`. -/
def find (d : List α) : List α → Option ℕ
  | [] => if d = [] then some 0 else none
  | c :: s => if d.isPrefixOf (c :: s) then some 0 else (find d s).map (· + 1)

/-- The pieces of what follows the next `n` elements. -/
def scan (d : List α) : ℕ → List α → List (List α)
  | _, [] => [[]]
  | n + 1, _ :: s => scan d n s
  | 0, c :: s =>
    if d.isPrefixOf (c :: s) then [] :: scan d (d.length - 1) s
    else (scan d 0 s).modifyHead (List.cons c)

def pieces (d s : List α) : List (List α) := scan d 0 s

def tokens (d s : List α) : List (List α) := (pieces d s).filter (· ≠ [])

theorem scan_eq_drop (d : List α) (n : ℕ) (s : List α) : scan d n s = pieces d (s.drop n) := by
  induction s generalizing n with
  | nil =>
    rw [List.drop_nil]
    cases n <;> rfl
  | cons c s ih =>
    cases n with
    | zero => rfl
    | succ n => exact ih n

theorem find_bound {d s : List α} {i : ℕ} (h : find d s = some i) : i + d.length ≤ s.length := by
  induction s generalizing i with
  | nil =>
    unfold find at h
    split at h
    · rename_i hd
      cases h
      rw [hd]
      exact Nat.le_refl _
    · cases h
  | cons c s ih =>
    unfold find at h
    split at h
    · rename_i hprefix
      cases h
      have hlen := (List.isPrefixOf_iff_prefix.mp hprefix).length_le
      omega
    · obtain ⟨j, hj, hij⟩ := Option.map_eq_some_iff.mp h
      have hbound := ih hj
      rw [List.length_cons]
      omega

theorem pieces_eq {d : List α} (hd : d ≠ []) (s : List α) :
    pieces d s =
      match find d s with
      | none => [s]
      | some i => s.take i :: pieces d (s.drop (i + d.length)) := by
  induction s with
  | nil =>
    have hnone : find d [] = none := if_neg hd
    rw [hnone]
    rfl
  | cons c s ih =>
    have hpos : 0 < d.length := List.length_pos_iff.mpr hd
    by_cases hprefix : d.isPrefixOf (c :: s)
    · have hfind : find d (c :: s) = some 0 := if_pos hprefix
      have hscan : pieces d (c :: s) = [] :: scan d (d.length - 1) s := if_pos hprefix
      have hdrop : (c :: s).drop (0 + d.length) = s.drop (d.length - 1) := by
        rw [show 0 + d.length = d.length - 1 + 1 by omega, List.drop_succ_cons]
      rw [hfind, hscan, scan_eq_drop]
      simp only [hdrop, List.take_zero]
    · have hfind : find d (c :: s) = (find d s).map (· + 1) := if_neg hprefix
      have hscan : pieces d (c :: s) = (pieces d s).modifyHead (List.cons c) := if_neg hprefix
      rw [hfind, hscan, ih]
      cases find d s with
      | none => rfl
      | some i =>
        have hdrop : (c :: s).drop (i + 1 + d.length) = s.drop (i + d.length) := by
          rw [Nat.add_right_comm, List.drop_succ_cons]
        simp only [Option.map_some, hdrop, List.modifyHead_cons, List.take_succ_cons]

/-! ### Pieces put together again -/

theorem pieces_ne_nil {d : List α} (hd : d ≠ []) (s : List α) : pieces d s ≠ [] := by
  rw [pieces_eq hd]
  cases find d s with
  | none => exact List.cons_ne_nil _ _
  | some i => exact List.cons_ne_nil _ _

theorem find_split {d s : List α} {i : ℕ} (h : find d s = some i) :
    s.take i ++ d ++ s.drop (i + d.length) = s := by
  induction s generalizing i with
  | nil =>
    unfold find at h
    split at h
    · rename_i hd
      rw [hd, List.take_nil, List.drop_nil]
      rfl
    · cases h
  | cons c s ih =>
    unfold find at h
    split at h
    · rename_i hprefix
      obtain rfl := Option.some.inj h
      rw [List.take_zero, List.nil_append, Nat.zero_add]
      exact List.prefix_iff_eq_append.mp (List.isPrefixOf_iff_prefix.mp hprefix)
    · obtain ⟨j, hj, rfl⟩ := Option.map_eq_some_iff.mp h
      have hcut := ih hj
      rw [Nat.add_right_comm, List.take_succ_cons, List.drop_succ_cons, List.cons_append,
        List.cons_append, hcut]

theorem find_le {d s : List α} {j : ℕ} (hj : j ≤ s.length) (h : d <+: s.drop j) :
    ∃ i, i ≤ j ∧ find d s = some i := by
  induction s generalizing j with
  | nil =>
    rw [List.drop_nil, List.prefix_nil] at h
    exact ⟨0, Nat.zero_le _, if_pos h⟩
  | cons c s ih =>
    by_cases hprefix : d.isPrefixOf (c :: s)
    · exact ⟨0, Nat.zero_le _, if_pos hprefix⟩
    cases j with
    | zero => exact absurd (List.isPrefixOf_iff_prefix.mpr h) hprefix
    | succ j =>
      obtain ⟨i, hi, hfind⟩ := ih (Nat.le_of_succ_le_succ hj) h
      refine ⟨i + 1, Nat.succ_le_succ hi, ?_⟩
      rw [find, if_neg hprefix, hfind, Option.map_some]

theorem find_le_of_append {d a b : List α} : ∃ i, i ≤ a.length ∧ find d (a ++ d ++ b) = some i := by
  apply find_le
  · simp only [List.length_append]
    omega
  · rw [List.append_assoc, List.drop_left]
    exact List.prefix_append d b

theorem not_infix_of_find_none {d s : List α} (h : find d s = none) : ¬ d <:+: s := by
  intro hinfix
  obtain ⟨a, b, rfl⟩ := hinfix
  obtain ⟨i, -, hfind⟩ := find_le_of_append (d := d) (a := a) (b := b)
  rw [h] at hfind
  cases hfind

theorem not_infix_take_of_find {d s : List α} {i : ℕ} (hd : d ≠ []) (h : find d s = some i) :
    ¬ d <:+: s.take i := by
  intro hinfix
  obtain ⟨a, b, htake⟩ := hinfix
  have hpos : 0 < d.length := List.length_pos_iff.mpr hd
  have hlength := congrArg List.length htake
  have hle := List.length_take_le i s
  simp only [List.length_append] at hlength
  obtain ⟨j, hj, hfind⟩ := find_le_of_append (d := d) (a := a) (b := b ++ s.drop i)
  rw [← List.append_assoc, htake, List.take_append_drop, h] at hfind
  obtain rfl := Option.some.inj hfind
  omega

/-- Cutting off the first piece, again and again: what holds of a list without the
separator, and of one when it does of what follows the leftmost occurrence. -/
theorem cut_induction {d : List α} (hd : d ≠ []) {P : List α → Prop}
    (last : ∀ s, find d s = none → P s)
    (cut : ∀ s i, find d s = some i → P (s.drop (i + d.length)) → P s) (s : List α) : P s := by
  have hpos : 0 < d.length := List.length_pos_iff.mpr hd
  induction hn : s.length using Nat.strongRecOn generalizing s with
  | ind n ih =>
    cases hfind : find d s with
    | none => exact last s hfind
    | some i =>
      have hbound := find_bound hfind
      have hshorter : (s.drop (i + d.length)).length < n := by
        rw [List.length_drop]
        omega
      exact cut s i hfind (ih _ hshorter _ rfl)

theorem intercalate_pieces {d : List α} (hd : d ≠ []) (s : List α) :
    d.intercalate (pieces d s) = s := by
  induction s using cut_induction hd with
  | last s hfind =>
    rw [pieces_eq hd, hfind]
    exact List.intercalate_singleton
  | cut s i hfind ih =>
    rw [pieces_eq hd, hfind]
    show d.intercalate (s.take i :: pieces d (s.drop (i + d.length))) = s
    rw [List.intercalate_cons_of_ne_nil (pieces_ne_nil hd _), ih]
    exact find_split hfind

theorem not_infix_of_mem_pieces {d : List α} (hd : d ≠ []) {s piece : List α}
    (h : piece ∈ pieces d s) : ¬ d <:+: piece := by
  induction s using cut_induction hd with
  | last s hfind =>
    rw [pieces_eq hd, hfind] at h
    rw [List.mem_singleton.mp h]
    exact not_infix_of_find_none hfind
  | cut s i hfind ih =>
    rw [pieces_eq hd, hfind] at h
    rcases List.mem_cons.mp h with rfl | hlater
    · exact not_infix_take_of_find hd hfind
    · exact ih hlater

theorem infix_of_mem_pieces {d : List α} (hd : d ≠ []) {s piece : List α}
    (h : piece ∈ pieces d s) : piece <:+: s := by
  induction s using cut_induction hd with
  | last s hfind =>
    rw [pieces_eq hd, hfind] at h
    rw [List.mem_singleton.mp h]
  | cut s i hfind ih =>
    rw [pieces_eq hd, hfind] at h
    rcases List.mem_cons.mp h with rfl | hlater
    · exact (List.take_prefix i s).isInfix
    · exact (ih hlater).trans (List.drop_suffix _ s).isInfix

theorem pieces_singleton (c : α) (s : List α) : pieces [c] s = s.splitOn c := by
  induction s with
  | nil => rfl
  | cons x s ih =>
    have hscan : pieces [c] (x :: s) =
        if [c].isPrefixOf (x :: s) then [] :: pieces [c] s
        else (pieces [c] s).modifyHead (List.cons x) := by
      rw [pieces, scan, List.length_singleton]
      rfl
    have hprefix : [c].isPrefixOf (x :: s) = (x == c) := by
      rw [List.isPrefixOf_cons_cons, List.isPrefixOf_nil_left, Bool.and_true, Bool.beq_comm]
    rw [List.splitOn_cons_eq_if_modifyHead, hscan, hprefix, ih]

theorem tokens_singleton (c : α) (s : List α) : tokens [c] s = (s.splitOn c).filter (· ≠ []) := by
  rw [tokens, pieces_singleton]

theorem tokens_eq {d : List α} (hd : d ≠ []) (s : List α) :
    tokens d s =
      match find d s with
      | none => [s].filter (· ≠ [])
      | some i => [s.take i].filter (· ≠ []) ++ tokens d (s.drop (i + d.length)) := by
  rw [tokens, pieces_eq hd]
  cases find d s with
  | none => rfl
  | some i =>
    show List.filter _ ([s.take i] ++ _) = _
    rw [List.filter_append]
    rfl

theorem tokens_nil {d : List α} (hd : d ≠ []) : tokens d [] = [] := by
  have hnone : find d [] = none := if_neg hd
  rw [tokens_eq hd, hnone]
  rfl

theorem infix_of_mem_splitOn {c : α} {s piece : List α} (h : piece ∈ s.splitOn c) :
    piece <:+: s := by
  rw [← pieces_singleton] at h
  exact infix_of_mem_pieces (List.cons_ne_nil c []) h

theorem not_mem_of_mem_splitOn {c : α} {s piece : List α} (h : piece ∈ s.splitOn c) :
    c ∉ piece := by
  rw [← pieces_singleton] at h
  rw [← List.singleton_infix_iff]
  exact not_infix_of_mem_pieces (List.cons_ne_nil c []) h

theorem length_splitOn (c : α) (s : List α) : (s.splitOn c).length = s.count c + 1 := by
  induction s with
  | nil => simp
  | cons x s ih =>
    rw [List.splitOn_cons_eq_if_modifyHead, List.count_cons]
    by_cases hx : x == c
    · rw [if_pos hx, if_pos hx, List.length_cons, ih]
    · rw [if_neg hx, if_neg hx, List.length_modifyHead, ih]

/-- Lines that are each ended by the separator are its pieces, with an empty one behind
the last separator. -/
theorem splitOn_flatMap {c : α} {lines : List (List α)} (h : ∀ line ∈ lines, c ∉ line) :
    (lines.flatMap fun line => line ++ [c]).splitOn c = lines ++ [[]] := by
  induction lines with
  | nil => exact List.splitOn_nil c
  | cons line lines ih =>
    obtain ⟨hline, hlines⟩ := List.forall_mem_cons.mp h
    rw [List.flatMap_cons, List.append_assoc, List.singleton_append,
      List.splitOn_append_cons_self_of_not_mem hline, ih hlines]
    rfl

theorem splitOn_filter {c : α} {p : α → Bool} (hc : p c = true) (s : List α) :
    (s.filter p).splitOn c = (s.splitOn c).map (List.filter p) := by
  induction s with
  | nil => simp
  | cons x s ih =>
    rw [List.splitOn_cons_eq_if_modifyHead]
    by_cases hx : x = c
    · subst hx
      rw [List.filter_cons_of_pos hc, List.splitOn_cons_eq_if_modifyHead, if_pos (by simp),
        if_pos (by simp), ih]
      rfl
    · obtain ⟨first, rest, hpieces⟩ := List.exists_cons_of_ne_nil (List.splitOn_ne_nil c s)
      rw [hpieces] at ih ⊢
      rw [if_neg (by simpa using hx), List.modifyHead_cons, List.map_cons]
      by_cases hkept : p x = true
      · rw [List.filter_cons_of_pos hkept, List.splitOn_cons_eq_if_modifyHead,
          if_neg (by simpa using hx), ih, List.filter_cons_of_pos hkept]
        rfl
      · rw [List.filter_cons_of_neg hkept, List.filter_cons_of_neg hkept, ih]
        rfl

end Split
