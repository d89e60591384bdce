import GrowServer.Lib.Split
import Mathlib.Algebra.Ring.Nat

/-!
# Texts of lines of fields, written without escaping

`render` joins fields by a bar and lines by a newline; `parse` cuts a text at its
newlines, and then each line at its bars. Nothing is escaped, so a text is read
back as what it was written from when no field has a separator in it. A template
is lines with holes in them, and two of its fillings are the same up to the holes.
-/

namespace Template

variable {α ι : Type*} {newline bar : α}

def renderLine (bar : α) (fields : List (List α)) : List α := [bar].intercalate fields

def render (newline bar : α) (lines : List (List (List α))) : List α :=
  [newline].intercalate (lines.map (renderLine bar))

def parse [DecidableEq α] (newline bar : α) (text : List α) : List (List (List α)) :=
  (text.splitOn newline).map fun line => line.splitOn bar

structure Clean (newline bar : α) (text : List α) : Prop where
  newline_not_mem : newline ∉ text
  bar_not_mem : bar ∉ text

instance [DecidableEq α] (text : List α) : Decidable (Clean newline bar text) :=
  decidable_of_iff (newline ∉ text ∧ bar ∉ text) ⟨fun h => ⟨h.1, h.2⟩, fun h => ⟨h.1, h.2⟩⟩

theorem clean_nil : Clean newline bar [] := ⟨List.not_mem_nil, List.not_mem_nil⟩

theorem Clean.append {s t : List α} (hs : Clean newline bar s) (ht : Clean newline bar t) :
    Clean newline bar (s ++ t) := by
  refine ⟨?_, ?_⟩
  · rw [List.mem_append, not_or]
    exact ⟨hs.newline_not_mem, ht.newline_not_mem⟩
  · rw [List.mem_append, not_or]
    exact ⟨hs.bar_not_mem, ht.bar_not_mem⟩

structure Readable (newline bar : α) (lines : List (List (List α))) : Prop where
  ne_nil : lines ≠ []
  line_ne_nil : ∀ fields ∈ lines, fields ≠ []
  clean : ∀ fields ∈ lines, ∀ field ∈ fields, Clean newline bar field

theorem not_mem_renderLine {c : α} {fields : List (List α)} (hbar : c ≠ bar)
    (h : ∀ field ∈ fields, c ∉ field) : c ∉ renderLine bar fields := by
  unfold renderLine
  induction fields with
  | nil => simp
  | cons field fields ih =>
    obtain ⟨hfield, hfields⟩ := List.forall_mem_cons.mp h
    cases fields with
    | nil => simpa using hfield
    | cons next fields =>
      rw [List.intercalate_cons_cons]
      simp [hfield, hbar, ih hfields]

theorem parse_render [DecidableEq α] (hne : newline ≠ bar) {lines : List (List (List α))}
    (h : Readable newline bar lines) : parse newline bar (render newline bar lines) = lines := by
  have hlines : ∀ line ∈ lines.map (renderLine bar), newline ∉ line := by
    intro line hline
    obtain ⟨fields, hfields, rfl⟩ := List.mem_map.mp hline
    exact not_mem_renderLine hne fun field hfield => (h.clean fields hfields field hfield).1
  have hfields : ∀ fields ∈ lines, (renderLine bar fields).splitOn bar = fields := by
    intro fields hmem
    exact List.splitOn_intercalate bar (fun field hfield => (h.clean fields hmem field hfield).2)
      (h.line_ne_nil fields hmem)
  have hcut := List.splitOn_intercalate newline hlines (by simpa using h.ne_nil)
  rw [parse, render, hcut, List.map_map]
  exact (List.map_congr_left hfields).trans (List.map_id lines)

theorem clean_of_mem_parse [DecidableEq α] {text : List α} {fields : List (List α)} {field : List α}
    (hfields : fields ∈ parse newline bar text) (hfield : field ∈ fields) :
    Clean newline bar field := by
  obtain ⟨line, hline, rfl⟩ := List.mem_map.mp hfields
  refine ⟨?_, Split.not_mem_of_mem_splitOn hfield⟩
  intro hmem
  exact Split.not_mem_of_mem_splitOn hline ((Split.infix_of_mem_splitOn hfield).subset hmem)

theorem render_append {lines : List (List (List α))} (h : lines ≠ []) (fields : List (List α)) :
    render newline bar (lines ++ [fields]) =
      render newline bar lines ++ newline :: renderLine bar fields := by
  induction lines with
  | nil => exact absurd rfl h
  | cons line lines ih =>
    cases lines with
    | nil => simp [render]
    | cons next lines =>
      have hrest := ih (List.cons_ne_nil next lines)
      simp only [render, List.map_cons, List.cons_append, List.intercalate_cons_cons] at hrest ⊢
      rw [hrest]
      simp

/-! ### Templates -/

inductive Field (α ι : Type*) where
  | fixed (text : List α)
  | hole (name : ι)

namespace Field

def fill (values : ι → List α) : Field α ι → List α
  | fixed text => text
  | hole name => values name

def FixedClean (newline bar : α) : Field α ι → Prop
  | fixed text => Clean newline bar text
  | hole _ => True

instance [DecidableEq α] : (field : Field α ι) → Decidable (field.FixedClean newline bar)
  | fixed text => inferInstanceAs (Decidable (Clean newline bar text))
  | hole _ => inferInstanceAs (Decidable True)

theorem clean_fill {field : Field α ι} {values : ι → List α} (h : field.FixedClean newline bar)
    (hvalues : ∀ name, Clean newline bar (values name)) : Clean newline bar (field.fill values) := by
  cases field with
  | fixed text => exact h
  | hole name => exact hvalues name

end Field

def fill (values : ι → List α) (template : List (List (Field α ι))) : List (List (List α)) :=
  template.map fun line => line.map (Field.fill values)

def fieldAt {β : Type*} (lines : List (List β)) (i j : ℕ) : Option β := lines[i]?.bind (·[j]?)

def Field.isHole : Field α ι → Bool
  | fixed _ => false
  | hole _ => true

def IsHole (template : List (List (Field α ι))) (i j : ℕ) : Prop :=
  (fieldAt template i j).any Field.isHole

instance (template : List (List (Field α ι))) (i j : ℕ) : Decidable (IsHole template i j) :=
  inferInstanceAs (Decidable (_ = true))

theorem readable_fill {template : List (List (Field α ι))} {values : ι → List α}
    (hne : template ≠ [])
    (hlines : ∀ line ∈ template, line ≠ [] ∧ ∀ field ∈ line, field.FixedClean newline bar)
    (hvalues : ∀ name, Clean newline bar (values name)) :
    Readable newline bar (fill values template) where
  ne_nil := by simpa [fill] using hne
  line_ne_nil := by
    intro fields hfields
    obtain ⟨line, hline, rfl⟩ := List.mem_map.mp hfields
    simpa using (hlines line hline).1
  clean := by
    intro fields hfields field hfield
    obtain ⟨line, hline, rfl⟩ := List.mem_map.mp hfields
    obtain ⟨slot, hslot, rfl⟩ := List.mem_map.mp hfield
    exact Field.clean_fill ((hlines line hline).2 slot hslot) hvalues

theorem fieldAt_fill (template : List (List (Field α ι))) (values : ι → List α) (i j : ℕ) :
    fieldAt (fill values template) i j = (fieldAt template i j).map (Field.fill values) := by
  unfold fieldAt fill
  rw [List.getElem?_map]
  cases template[i]? with
  | none => rfl
  | some line => simp

theorem IsHole.bounds {template : List (List (Field α ι))} {i j width : ℕ}
    (h : IsHole template i j) (hwidth : ∀ line ∈ template, line.length ≤ width) :
    i < template.length ∧ j < width := by
  rw [IsHole, fieldAt] at h
  cases hline : template[i]? with
  | none =>
    rw [hline] at h
    cases h
  | some line =>
    obtain ⟨hi, rfl⟩ := List.getElem?_eq_some_iff.mp hline
    rw [hline, Option.bind_some] at h
    have hj : j < template[i].length := by
      by_contra hlong
      rw [List.getElem?_eq_none (by omega)] at h
      cases h
    have hmax := hwidth template[i] (List.getElem_mem hi)
    exact ⟨hi, by omega⟩

/-! ### The length of a text -/

theorem length_intercalate (separator : α) (pieces : List (List α)) :
    ([separator].intercalate pieces).length = (pieces.map List.length).sum + (pieces.length - 1) := by
  induction pieces with
  | nil => rfl
  | cons piece pieces ih =>
    cases pieces with
    | nil => simp
    | cons next pieces =>
      rw [List.intercalate_cons_cons, List.length_append, List.length_append, ih]
      simp only [List.map_cons, List.sum_cons, List.length_cons, List.length_nil]
      omega

/-- What a field adds to the length of a text beyond its fixed part. -/
def Field.filledLength (values : ι → List α) : Field α ι → ℕ
  | fixed _ => 0
  | hole name => (values name).length

def filledLength (values : ι → List α) (template : List (List (Field α ι))) : ℕ :=
  (template.map fun line => (line.map (Field.filledLength values)).sum).sum

theorem length_fill_line (values : ι → List α) (line : List (Field α ι)) :
    (renderLine bar (line.map (Field.fill values))).length =
      (renderLine bar (line.map (Field.fill fun _ => []))).length +
        (line.map (Field.filledLength values)).sum := by
  have hsum : ((line.map (Field.fill values)).map List.length).sum =
      ((line.map (Field.fill fun _ => [])).map List.length).sum +
        (line.map (Field.filledLength values)).sum := by
    induction line with
    | nil => rfl
    | cons field line ih =>
      simp only [List.map_cons, List.sum_cons, ih]
      cases field with
      | fixed text =>
        simp only [Field.fill, Field.filledLength]
        omega
      | hole name =>
        simp only [Field.fill, Field.filledLength, List.length_nil]
        omega
  rw [renderLine, renderLine, length_intercalate, length_intercalate, hsum, List.length_map,
    List.length_map]
  omega

/-- Filling a template adds the lengths of what its holes are filled with. -/
theorem length_render_fill (values : ι → List α) (template : List (List (Field α ι))) :
    (render newline bar (fill values template)).length =
      (render newline bar (fill (fun _ => []) template)).length + filledLength values template := by
  have hsum : (((fill values template).map (renderLine bar)).map List.length).sum =
      (((fill (fun _ => []) template).map (renderLine bar)).map List.length).sum +
        filledLength values template := by
    unfold fill filledLength
    induction template with
    | nil => rfl
    | cons line template ih =>
      simp only [List.map_cons, List.sum_cons, ih, length_fill_line values line]
      omega
  rw [render, render, length_intercalate, length_intercalate, hsum]
  simp only [fill, List.length_map]
  omega

/-! ### Two texts -/

/-- The same lines with the same number of bars on each, and the same fields but for the
open ones. -/
structure SameUpTo [DecidableEq α] (newline bar : α) (isOpen : ℕ → ℕ → Prop)
    (text text' : List α) : Prop where
  separators : (text.splitOn newline).map (List.count bar) =
    (text'.splitOn newline).map (List.count bar)
  closed : ∀ i j, ¬ isOpen i j →
    fieldAt (parse newline bar text) i j = fieldAt (parse newline bar text') i j

theorem separators_eq [DecidableEq α] (newline bar : α) (text : List α) :
    (text.splitOn newline).map (List.count bar) =
      (parse newline bar text).map fun fields => fields.length - 1 := by
  rw [parse, List.map_map]
  refine List.map_congr_left fun line _ => ?_
  show line.count bar = (line.splitOn bar).length - 1
  rw [Split.length_splitOn]
  omega

theorem sameUpTo_fill [DecidableEq α] {template : List (List (Field α ι))}
    {values values' : ι → List α} {text text' : List α} (h : parse newline bar text = fill values template)
    (h' : parse newline bar text' = fill values' template) :
    SameUpTo newline bar (IsHole template) text text' where
  separators := by
    rw [separators_eq, separators_eq, h, h', fill, fill, List.map_map, List.map_map]
    refine List.map_congr_left fun line _ => ?_
    simp
  closed := by
    intro i j hclosed
    rw [h, h', fieldAt_fill, fieldAt_fill]
    cases hfield : fieldAt template i j with
    | none => rfl
    | some field =>
      cases field with
      | fixed text => rfl
      | hole name =>
        have hhole : IsHole template i j := by
          rw [IsHole, hfield]
          rfl
        exact absurd hhole hclosed

theorem SameUpTo.mono [DecidableEq α] {isOpen isOpen' : ℕ → ℕ → Prop} {text text' : List α}
    (h : SameUpTo newline bar isOpen text text') (himp : ∀ i j, isOpen i j → isOpen' i j) :
    SameUpTo newline bar isOpen' text text' where
  separators := h.separators
  closed := fun i j hclosed => h.closed i j fun hopen => hclosed (himp i j hopen)

end Template
