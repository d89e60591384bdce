import GrowServer.Utils.TextParse

/-!
# Line endings (Utils/TextParse.cpp, TextParse::Parse, TextParse::GetAsString)

`Parse` drops empty lines first and removes the carriage returns after. A line of carriage
returns alone is then an empty entry, which no second parse keeps.
-/

namespace GrowServer
open LittleEndian Outcome

namespace TextParse

def withoutCarriageReturns (s : Bytes) : Bytes := s.filter (· ≠ carriageReturn)

theorem withoutCarriageReturns_idem (s : Bytes) :
    withoutCarriageReturns (withoutCarriageReturns s) = withoutCarriageReturns s := by
  unfold withoutCarriageReturns
  rw [List.filter_filter]
  simp

/-- Stripping lines before the empty ones are dropped drops those that become empty too. -/
theorem strip_then_drop (pieces : List Bytes) :
    ((pieces.map withoutCarriageReturns).filter (· ≠ [])).map withoutCarriageReturns =
      ((pieces.filter (· ≠ [])).map withoutCarriageReturns).filter (· ≠ []) := by
  induction pieces with
  | nil => rfl
  | cons piece pieces ih =>
    by_cases hpiece : piece = []
    · subst hpiece
      exact ih
    by_cases hline : withoutCarriageReturns piece = []
    · simpa [hpiece, hline] using ih
    · simpa [hpiece, hline, withoutCarriageReturns_idem] using ih

theorem textLines_withoutCarriageReturns (s : Bytes) :
    textLines (withoutCarriageReturns s) = (textLines s).filter (· ≠ []) := by
  have hsplit : (withoutCarriageReturns s).splitOn (10 : UInt8) =
      (s.splitOn (10 : UInt8)).map withoutCarriageReturns :=
    Split.splitOn_filter (by decide) s
  show (((withoutCarriageReturns s).splitOn (10 : UInt8)).filter (· ≠ [])).map
    withoutCarriageReturns = _
  rw [hsplit]
  exact strip_then_drop (s.splitOn (10 : UInt8))

theorem parse_withoutCarriageReturns (s : Bytes) :
    (parse (withoutCarriageReturns s)).m_data = (parse s).m_data.filter (· ≠ []) := by
  rw [parse_m_data, parse_m_data]
  exact textLines_withoutCarriageReturns s

theorem parse_getAsString_parse (s : Bytes) :
    (parse (parse s).getAsString).m_data = (parse s).m_data.filter (· ≠ []) := by
  have hlines : ∀ line ∈ (parse s).m_data, (10 : UInt8) ∉ line ∧ (13 : UInt8) ∉ line := by
    intro line hline
    rw [parse_m_data] at hline
    exact mem_textLines hline
  rw [parse_m_data (parse s).getAsString]
  exact textLines_getAsString (parse s) hlines

/-- A text whose entries are the same however its lines end and after they are written out
again. -/
structure Stable (s : Bytes) : Prop where
  entry_ne_nil : ∀ line ∈ (parse s).m_data, line ≠ []
  reparsed : (parse (parse s).getAsString).m_data = (parse s).m_data
  withoutReturns : (parse (withoutCarriageReturns s)).m_data = (parse s).m_data

theorem stable_of_ne_nil {s : Bytes} (h : ∀ line ∈ (parse s).m_data, line ≠ []) : Stable s := by
  have hall : (parse s).m_data.filter (· ≠ []) = (parse s).m_data := by
    rw [List.filter_eq_self]
    exact fun line hline => decide_eq_true (h line hline)
  exact ⟨h, (parse_getAsString_parse s).trans hall, (parse_withoutCarriageReturns s).trans hall⟩

/-- A text is stable exactly when no line of it is made of carriage returns alone. -/
theorem stable_iff (s : Bytes) :
    Stable s ↔ ∀ line ∈ s.splitOn (10 : UInt8), line ≠ [] → ∃ byte ∈ line, byte ≠ carriageReturn := by
  constructor
  · intro h line hline hne
    by_contra hreturns
    have hempty : withoutCarriageReturns line = [] := by
      rw [withoutCarriageReturns, List.filter_eq_nil_iff]
      intro byte hbyte hkept
      exact hreturns ⟨byte, hbyte, of_decide_eq_true hkept⟩
    have hmem : withoutCarriageReturns line ∈ (parse s).m_data := by
      rw [parse_m_data]
      exact List.mem_map_of_mem (List.mem_filter.mpr ⟨hline, decide_eq_true hne⟩)
    exact h.entry_ne_nil _ hmem hempty
  · intro h
    refine stable_of_ne_nil ?_
    intro line hline hempty
    rw [parse_m_data] at hline
    obtain ⟨piece, hpiece, rfl⟩ := List.mem_map.mp hline
    obtain ⟨hmem, hne⟩ := List.mem_filter.mp hpiece
    obtain ⟨byte, hbyte, hother⟩ := h piece hmem (of_decide_eq_true hne)
    exact List.filter_eq_nil_iff.mp hempty byte hbyte (decide_eq_true hother)

theorem not_stable_carriageReturn : ¬ Stable [carriageReturn] := by
  intro h
  exact h.entry_ne_nil [] (by decide +kernel) rfl

end TextParse

end GrowServer
