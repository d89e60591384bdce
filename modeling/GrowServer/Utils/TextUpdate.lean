import GrowServer.Utils.TextParse

/-!
# Updating an entry (Utils/TextParse.cpp, TextParse::Set)

`Set` rewrites the first line that begins with a key. It searches for the line as `Get`
does, but looks at the first token of an empty line as well.
-/

namespace GrowServer
open LittleEndian Outcome

namespace TextParse

def setLoop (key value : Bytes) (token : Delimiter) : List Bytes → Except Fault (List Bytes)
  | [] => return []
  | line :: lines => do
    let tokenize := stringTokenize line token
    let first ← tokenAt tokenize 0
    if first ≠ key then return line :: (← setLoop key value token lines)
    else return (first ++ token.bytes ++ value) :: lines

def set (this : TextParse) (key value : Bytes) (token : Delimiter := bar) :
    Except Fault TextParse :=
  if this.m_data.isEmpty then return this
  else return { this with m_data := ← setLoop key value token this.m_data }

def position (key : Bytes) (lines : List Bytes) : ℕ :=
  lines.findIdx fun line => (fields line).head? = some key

/-- The search for the key passes lines only that have a field. -/
def EveryLineFielded (key : Bytes) (lines : List Bytes) : Prop :=
  ∀ line ∈ lines.takeWhile (fun line => (fields line).head? ≠ some key), fields line ≠ []

theorem everyLineFielded_cons (key line : Bytes) (lines : List Bytes) :
    EveryLineFielded key (line :: lines) ↔
      fields line ≠ [] ∧ ((fields line).head? ≠ some key → EveryLineFielded key lines) :=
  forall_passed_cons (P := fun line => fields line ≠ []) (fun _ hkey => fields_ne_nil_of_head hkey)
    line lines

theorem everyLineFielded_nil (key : Bytes) : EveryLineFielded key [] :=
  fun _ hline => absurd hline List.not_mem_nil

theorem position_cons (key line : Bytes) (lines : List Bytes) :
    position key (line :: lines) =
      if (fields line).head? = some key then 0 else position key lines + 1 := by
  unfold position
  rw [List.findIdx_cons]
  by_cases hkey : (fields line).head? = some key
  · simp [hkey]
  · simp [hkey]

theorem position_of_none {key : Bytes} {lines : List Bytes}
    (h : ∀ line ∈ lines, (fields line).head? ≠ some key) : position key lines = lines.length :=
  List.findIdx_eq_length.mpr fun line hline => decide_eq_false (h line hline)

theorem setLoop_eq_ok_iff (key value : Bytes) (lines after : List Bytes) :
    setLoop key value bar lines = .ok after ↔ EveryLineFielded key lines ∧
      lines.set (position key lines) (key ++ bar.bytes ++ value) = after := by
  induction lines generalizing after with
  | nil =>
    exact ⟨fun h => ⟨everyLineFielded_nil key, Except.ok.inj h⟩, fun h => congrArg Except.ok h.2⟩
  | cons line lines ih =>
    rw [setLoop, stringTokenize_bar, everyLineFielded_cons, position_cons]
    cases hfields : fields line with
    | nil =>
      refine iff_of_false ?_ fun h => h.1.1 rfl
      intro h
      cases h
    | cons field rest =>
      have hne : field :: rest ≠ [] := List.cons_ne_nil field rest
      show (if field ≠ key then _ else _) = _ ↔ _
      by_cases hkey : field = key
      · subst hkey
        rw [if_neg (not_not.mpr rfl), if_pos (List.head?_cons ..), List.set_cons_zero]
        exact ⟨fun h => ⟨⟨hne, fun hother => absurd rfl hother⟩, Except.ok.inj h⟩,
          fun h => congrArg Except.ok h.2⟩
      · have hhead : (field :: rest).head? ≠ some key := fun h => hkey (Option.some.inj h)
        rw [if_pos hkey, if_neg hhead, List.set_cons_succ, bind_eq_ok]
        constructor
        · intro h
          obtain ⟨lines', hlines', hafter⟩ := h
          obtain ⟨hfielded, hset⟩ := (ih lines').mp hlines'
          rw [hset]
          exact ⟨⟨hne, fun _ => hfielded⟩, Except.ok.inj hafter⟩
        · intro h
          obtain ⟨⟨-, hfielded⟩, hafter⟩ := h
          exact ⟨_, (ih _).mpr ⟨hfielded hhead, rfl⟩, congrArg Except.ok hafter⟩

theorem set_eq_setLoop (this : TextParse) (key value : Bytes) :
    this.set key value = do
      return { this with m_data := ← setLoop key value bar this.m_data } := by
  unfold set
  by_cases hempty : this.m_data = []
  · rw [hempty]
    exact congrArg (fun m_data => Except.ok (TextParse.mk m_data)) hempty
  · rw [if_neg (by rwa [List.isEmpty_iff])]

theorem set_eq_ok_iff (this after : TextParse) (key value : Bytes) :
    this.set key value = .ok after ↔ EveryLineFielded key this.m_data ∧
      { this with m_data :=
        this.m_data.set (position key this.m_data) (key ++ bar.bytes ++ value) } = after := by
  have hloop := setLoop_eq_ok_iff key value this.m_data
  rw [set_eq_setLoop, bind_eq_ok]
  constructor
  · intro h
    obtain ⟨lines, hlines, hafter⟩ := h
    obtain ⟨hfielded, rfl⟩ := (hloop lines).mp hlines
    exact ⟨hfielded, Except.ok.inj hafter⟩
  · intro h
    obtain ⟨hfielded, hafter⟩ := h
    exact ⟨_, (hloop _).mpr ⟨hfielded, rfl⟩, congrArg Except.ok hafter⟩

/-! ### What is read back after an update -/

theorem fields_entry {key value : Bytes} (hkey : key ≠ []) (hbar : (124 : UInt8) ∉ key) :
    (fields (key ++ bar.bytes ++ value)).head? = some key := by
  rw [fields_pair key value hkey hbar]
  rfl

theorem getLoop_set {key value : Bytes} (hkey : key ≠ []) (hbar : (124 : UInt8) ∉ key)
    (hvalue : value ≠ []) (hvalueBar : (124 : UInt8) ∉ value) {lines : List Bytes}
    (hfielded : EveryLineFielded key lines)
    (hfound : ∃ line ∈ lines, (fields line).head? = some key) :
    getLoop key 1 bar 0 (lines.set (position key lines) (key ++ bar.bytes ++ value)) =
      .ok value := by
  induction lines with
  | nil =>
    obtain ⟨line, hline, -⟩ := hfound
    cases hline
  | cons line lines ih =>
    obtain ⟨hne, hrest⟩ := (everyLineFielded_cons key line lines).mp hfielded
    rw [position_cons]
    by_cases hhead : (fields line).head? = some key
    · have hfields : fields (key ++ bar.bytes ++ value) = [key, value] := by
        rw [fields_pair key value hkey hbar, fields, List.splitOn_eq_singleton hvalueBar,
          List.filter_cons_of_pos (by simpa using hvalue), List.filter_nil]
      rw [if_pos hhead, List.set_cons_zero, getLoop_cons, hfields]
      simp
    · have hlater : ∃ line ∈ lines, (fields line).head? = some key := by
        obtain ⟨found, hmem, hfoundHead⟩ := hfound
        rcases List.mem_cons.mp hmem with rfl | hmem
        · exact absurd hfoundHead hhead
        · exact ⟨found, hmem, hfoundHead⟩
      rw [if_neg hhead, List.set_cons_succ, getLoop_cons, if_neg fun h => hne h.2, if_pos hhead]
      exact ih (hrest hhead) hlater

/-- The rewritten line begins with its key still, so a search for another key passes it
as before. -/
theorem getLoop_set_of_ne {key other : Bytes} (value : Bytes) (hkey : key ≠ [])
    (hbar : (124 : UInt8) ∉ key) (hother : other ≠ key) (index : ℤ) (lines : List Bytes) :
    getLoop other index bar 0 (lines.set (position key lines) (key ++ bar.bytes ++ value)) =
      getLoop other index bar 0 lines := by
  have hpassed {line : Bytes} (hhead : (fields line).head? = some key) (rest : List Bytes) :
      getLoop other index bar 0 (line :: rest) = getLoop other index bar 0 rest := by
    have hne := fields_ne_nil_of_head hhead
    have hdiffer : (fields line).head? ≠ some other := by
      rw [hhead]
      exact fun h => hother (Option.some.inj h).symm
    rw [getLoop_cons, if_neg fun h => hne h.2, if_pos hdiffer]
  induction lines with
  | nil => rfl
  | cons line lines ih =>
    rw [position_cons]
    by_cases hhead : (fields line).head? = some key
    · rw [if_pos hhead, List.set_cons_zero, hpassed (fields_entry hkey hbar), hpassed hhead]
    · rw [if_neg hhead, List.set_cons_succ, getLoop_cons, getLoop_cons, ih]

/-- What a keyed update does: it changes the first line that begins with the key, if there
is one, and nothing that is read under another key. -/
structure KeyedUpdate (this after : TextParse) (key value : Bytes) : Prop where
  get_key : (∃ line ∈ this.m_data, (fields line).head? = some key) → after.get key = .ok value
  unchanged : (∀ line ∈ this.m_data, (fields line).head? ≠ some key) → after = this
  length_eq : after.m_data.length = this.m_data.length
  line_eq (i : ℕ) : i ≠ position key this.m_data → after.m_data[i]? = this.m_data[i]?
  get_other (other : Bytes) (index : ℤ) :
    other ≠ key → after.get other index = this.get other index

theorem keyedUpdate_of_set {this after : TextParse} {key value : Bytes} (hkey : key ≠ [])
    (hbar : (124 : UInt8) ∉ key) (hvalue : value ≠ []) (hvalueBar : (124 : UInt8) ∉ value)
    (hset : this.set key value = .ok after) : KeyedUpdate this after key value := by
  obtain ⟨hfielded, rfl⟩ := (set_eq_ok_iff this after key value).mp hset
  exact {
    get_key := fun hfound => by
      rw [get_eq_getLoop]
      exact getLoop_set hkey hbar hvalue hvalueBar hfielded hfound
    unchanged := fun hnone => by
      have hposition := position_of_none hnone
      rw [hposition, List.set_eq_of_length_le (Nat.le_refl _)]
    length_eq := List.length_set
    line_eq := fun i hi => List.getElem?_set_ne (Ne.symm hi)
    get_other := fun other index hother => by
      rw [get_eq_getLoop, get_eq_getLoop]
      exact getLoop_set_of_ne value hkey hbar hother index this.m_data }

/-- `Set` on a received text is a keyed update exactly when no line without a field stands
before the line it looks for (or anywhere, when there is none). An empty line, which `Get`
passes, is such a line. -/
theorem set_parse_iff (s key value : Bytes) (hkey : key ≠ []) (hbar : (124 : UInt8) ∉ key)
    (hvalue : value ≠ []) (hvalueBar : (124 : UInt8) ∉ value) :
    (∃ after, (parse s).set key value = .ok after ∧ KeyedUpdate (parse s) after key value) ↔
      EveryLineFielded key (textLines s) := by
  rw [← parse_m_data]
  constructor
  · intro h
    obtain ⟨after, hset, -⟩ := h
    exact ((set_eq_ok_iff _ _ key value).mp hset).1
  · intro h
    have hset := (set_eq_ok_iff (parse s) _ key value).mpr ⟨h, rfl⟩
    exact ⟨_, hset, keyedUpdate_of_set hkey hbar hvalue hvalueBar hset⟩

theorem set_parse_action :
    EveryLineFielded (ascii "action") (textLines (ascii "action|quit")) ∧
      ∃ after, (parse (ascii "action|quit")).set (ascii "action") (ascii "log") = .ok after ∧
        KeyedUpdate (parse (ascii "action|quit")) after (ascii "action") (ascii "log") := by
  have hfielded : EveryLineFielded (ascii "action") (textLines (ascii "action|quit")) := by
    unfold EveryLineFielded
    decide +kernel
  exact ⟨hfielded, (set_parse_iff (ascii "action|quit") (ascii "action") (ascii "log")
    (by decide) (by decide) (by decide) (by decide)).mpr hfielded⟩

/-- A carriage return alone on the line before. -/
theorem not_set_parse_emptyLine :
    ¬ ∃ after, (parse (ascii "\r\na|1")).set (ascii "a") (ascii "2") = .ok after ∧
      KeyedUpdate (parse (ascii "\r\na|1")) after (ascii "a") (ascii "2") := by
  have hset : (parse (ascii "\r\na|1")).set (ascii "a") (ascii "2") = .error .tokenIndex := by
    decide +kernel
  intro h
  obtain ⟨after, hafter, -⟩ := h
  rw [hset] at hafter
  cases hafter

end TextParse

end GrowServer
