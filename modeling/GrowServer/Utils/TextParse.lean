import GrowServer.Lib.Outcome
import GrowServer.Lib.Template
import GrowServer.Utils.StdNumber
import Mathlib.Data.List.GetD

/-!
# TextParse (Utils/TextParse.cpp, Utils/TextParse.hpp)

Client text as lines of fields. `StringTokenize` drops empty pieces, and `Parse`
removes the carriage returns only after it has cut the lines, so a parsed line
may be empty and a non-empty one may have no field at all.
-/

namespace GrowServer
open LittleEndian Outcome

structure Delimiter where
  bytes : Bytes
  ne_nil : bytes ≠ []

def newline : Delimiter := ⟨ascii "\n", by decide⟩
def bar : Delimiter := ⟨ascii "|", by decide⟩
def carriageReturn : UInt8 := 13

def findFrom (string delimiter : Bytes) (pos : ℕ) : Option ℕ :=
  (Split.find delimiter (string.drop pos)).map (· + pos)

def tokenizeLoop (string delimiter : Bytes) : (fuel previousPos : ℕ) → Option (List Bytes)
  | 0, _ => none
  | fuel + 1, previousPos => do
    let currentPos := (findFrom string delimiter previousPos).getD string.length
    let token := (string.drop previousPos).take (currentPos - previousPos)
    let tokens := if token.isEmpty then [] else [token]
    let previousPos := currentPos + delimiter.length
    if currentPos < string.length ∧ previousPos < string.length then
      return tokens ++ (← tokenizeLoop string delimiter fuel previousPos)
    else return tokens

theorem drop_add_length (string : Bytes) (pos n : ℕ) :
    (string.drop pos).drop n = string.drop (pos + n) := List.drop_drop

theorem tokenizeLoop_eq (string : Bytes) (delimiter : Delimiter) (fuel previousPos : ℕ)
    (hpos : previousPos ≤ string.length) (hfuel : string.length < fuel + previousPos) :
    tokenizeLoop string delimiter.bytes fuel previousPos =
      some (Split.tokens delimiter.bytes (string.drop previousPos)) := by
  induction fuel generalizing previousPos with
  | zero => omega
  | succ fuel ih =>
    have htoken (token : Bytes) :
        (if token.isEmpty then [] else [token]) = [token].filter (· ≠ []) := by
      cases token <;> rfl
    have hlen : (string.drop previousPos).length = string.length - previousPos :=
      List.length_drop
    unfold tokenizeLoop findFrom
    rw [Split.tokens_eq delimiter.ne_nil]
    cases hfind : Split.find delimiter.bytes (string.drop previousPos) with
    | none =>
      have hall : (string.drop previousPos).take (string.length - previousPos) =
          string.drop previousPos := List.take_of_length_le hlen.le
      simp only [Option.map_none, Option.getD_none, hall, htoken, Nat.lt_irrefl, false_and,
        if_false]
      rfl
    | some i =>
      have hbound := Split.find_bound hfind
      have hdpos : 0 < delimiter.bytes.length := List.length_pos_iff.mpr delimiter.ne_nil
      have hdrop : (string.drop previousPos).drop (i + delimiter.bytes.length) =
          string.drop (i + previousPos + delimiter.bytes.length) := by
        rw [drop_add_length]
        congr 1
        omega
      have hcut : i + previousPos - previousPos = i := by omega
      simp only [Option.map_some, Option.getD_some, hcut, htoken, hdrop]
      by_cases hmore : i + previousPos + delimiter.bytes.length < string.length
      · have hrest := ih (i + previousPos + delimiter.bytes.length) (by omega) (by omega)
        rw [if_pos ⟨by omega, hmore⟩, hrest]
        rfl
      · have hnil : string.drop (i + previousPos + delimiter.bytes.length) = [] :=
          List.drop_eq_nil_of_le (by omega)
        rw [if_neg (fun h => hmore h.2), hnil, Split.tokens_nil delimiter.ne_nil, List.append_nil]
        rfl

theorem tokenizeLoop_isSome (string : Bytes) (delimiter : Delimiter) :
    (tokenizeLoop string delimiter.bytes (string.length + 1) 0).isSome := by
  rw [tokenizeLoop_eq string delimiter _ 0 (Nat.zero_le _) (by omega)]
  rfl

def stringTokenize (string : Bytes) (delimiter : Delimiter := bar) : List Bytes :=
  (tokenizeLoop string delimiter.bytes (string.length + 1) 0).get
    (tokenizeLoop_isSome string delimiter)

theorem stringTokenize_eq (string : Bytes) (delimiter : Delimiter) :
    stringTokenize string delimiter = Split.tokens delimiter.bytes string := by
  have h := tokenizeLoop_eq string delimiter (string.length + 1) 0 (Nat.zero_le _) (by omega)
  rw [List.drop_zero] at h
  exact Option.get_of_eq_some _ h

def tokenAt (tokens : List Bytes) (index : ℤ) : Except Fault Bytes :=
  if index < 0 then .error .tokenIndex
  else
    match tokens[index.toNat]? with
    | some token => .ok token
    | none => .error .tokenIndex

structure TextParse where
  m_data : List Bytes := []
  deriving DecidableEq, Repr

namespace TextParse

def parse (string : Bytes) : TextParse where
  m_data := (stringTokenize string newline).map fun line => line.filter (· ≠ carriageReturn)

def getLoop (key : Bytes) (index : ℤ) (token : Delimiter) (key_index : ℤ) :
    List Bytes → Except Fault Bytes
  | [] => return []
  | line :: lines =>
    if line.isEmpty then getLoop key index token key_index lines
    else do
      let tokenize := stringTokenize line token
      let field ← tokenAt tokenize key_index
      if field ≠ key then getLoop key index token key_index lines
      else if index < 0 ∨ index ≥ tokenize.length then return []
      else tokenAt tokenize (key_index + index)

def get (this : TextParse) (key : Bytes) (index : ℤ := 1) (token : Delimiter := bar)
    (key_index : ℤ := 0) : Except Fault Bytes :=
  if this.m_data.isEmpty then return []
  else getLoop key index token key_index this.m_data

def add (this : TextParse) (key value : Bytes) (token : Bytes := bar.bytes) : TextParse :=
  { this with m_data := this.m_data ++ [key ++ token ++ value] }

def ofPairs (data : List (Bytes × Bytes)) : TextParse :=
  data.foldl (fun this it => this.add it.1 it.2) {}

def contain (this : TextParse) (key : Bytes) : Except Fault Bool := do
  return (← this.get key) != []

def getSize (this : TextParse) : ℕ := this.m_data.length

def getAsString (this : TextParse) : Bytes :=
  this.m_data.foldl (fun ret line => ret ++ (line ++ newline.bytes)) []

/-! ### Lookup by the first field -/

def fields (line : Bytes) : List Bytes := (line.splitOn (124 : UInt8)).filter (· ≠ [])

/-- The lines of a text, without the empty ones, each without its carriage returns. -/
def textLines (string : Bytes) : List Bytes :=
  ((string.splitOn (10 : UInt8)).filter (· ≠ [])).map fun line => line.filter (· ≠ (13 : UInt8))

/-- What looking up a key means: field `index` of the first line that begins with it. -/
def lookup (key : Bytes) (index : ℤ) (lines : List Bytes) : Bytes :=
  match lines.find? fun line => (fields line).head? = some key with
  | none => []
  | some line => if index < 0 then [] else (fields line).getD index.toNat []

/-- The search for a key passes no line that has content but no field. -/
def EveryLineKeyed (key : Bytes) (lines : List Bytes) : Prop :=
  ∀ line ∈ lines.takeWhile (fun line => (fields line).head? ≠ some key),
    line ≠ [] → fields line ≠ []

theorem stringTokenize_bar (line : Bytes) : stringTokenize line = fields line := by
  rw [stringTokenize_eq]
  exact Split.tokens_singleton 124 line

theorem parse_m_data (string : Bytes) : (parse string).m_data = textLines string := by
  show (stringTokenize string newline).map _ = _
  rw [stringTokenize_eq]
  show (Split.tokens [10] string).map _ = _
  rw [Split.tokens_singleton]
  rfl

theorem fields_nil : fields [] = [] := by
  rw [fields, List.splitOn_nil]
  rfl

theorem tokenAt_guarded (tokens : List Bytes) (index : ℤ) :
    (if index < 0 ∨ index ≥ tokens.length then return [] else tokenAt tokens (0 + index)) =
      Except.ok (if index < 0 then [] else tokens.getD index.toNat []) := by
  by_cases hneg : index < 0
  · rw [if_pos (Or.inl hneg), if_pos hneg]
    rfl
  · rw [if_neg hneg]
    by_cases hlong : index ≥ tokens.length
    · have hdefault : tokens.getD index.toNat [] = [] := List.getD_eq_default _ _ (by omega)
      rw [if_pos (Or.inr hlong), hdefault]
      rfl
    · have hlt : index.toNat < tokens.length := by omega
      rw [if_neg (by omega), Int.zero_add, tokenAt, if_neg hneg, List.getElem?_eq_getElem hlt,
        List.getD_eq_getElem _ _ hlt]

/-- One round of the search: an empty line is passed, a line without a field is
indexed out of bounds, any other is decided by its first field. -/
theorem getLoop_cons (key : Bytes) (index : ℤ) (line : Bytes) (lines : List Bytes) :
    getLoop key index bar 0 (line :: lines) =
      if line ≠ [] ∧ fields line = [] then .error .tokenIndex
      else if (fields line).head? ≠ some key then getLoop key index bar 0 lines
      else .ok (if index < 0 then [] else (fields line).getD index.toNat []) := by
  rw [getLoop, stringTokenize_bar]
  by_cases hline : line = []
  · rw [hline, fields_nil]
    rfl
  · rw [if_neg (by rwa [List.isEmpty_iff])]
    cases hfields : fields line with
    | nil =>
      rw [if_pos ⟨hline, rfl⟩]
      rfl
    | cons field rest =>
      rw [if_neg (fun h => List.cons_ne_nil _ _ h.2)]
      show (if field ≠ key then _ else _) = _
      by_cases hkey : field = key
      · have hhead : (field :: rest).head? = some key := congrArg some hkey
        rw [if_neg (not_not.mpr hkey), if_neg (not_not.mpr hhead)]
        exact tokenAt_guarded _ _
      · have hhead : (field :: rest).head? ≠ some key := fun h => hkey (Option.some.inj h)
        rw [if_pos hkey, if_pos hhead]

theorem fields_ne_nil_of_head {line key : Bytes} (h : (fields line).head? = some key) :
    fields line ≠ [] := by
  intro hnil
  rw [hnil] at h
  cases h

/-- A search that ends at a line with the key looks at this line and, where it goes on, at
the others. What holds of lines with a key need not be asked of the line it ends at. -/
theorem forall_passed_cons {P : Bytes → Prop} {key : Bytes}
    (hfound : ∀ line, (fields line).head? = some key → P line) (line : Bytes)
    (lines : List Bytes) :
    (∀ passed ∈ (line :: lines).takeWhile (fun line => (fields line).head? ≠ some key),
        P passed) ↔
      P line ∧ ((fields line).head? ≠ some key →
        ∀ passed ∈ lines.takeWhile (fun line => (fields line).head? ≠ some key), P passed) := by
  by_cases hkey : (fields line).head? = some key
  · rw [List.takeWhile_cons_of_neg (by simpa using hkey)]
    simp [hkey, hfound line hkey]
  · rw [List.takeWhile_cons_of_pos (by simpa using hkey)]
    simp [hkey]

theorem everyLineKeyed_cons (key line : Bytes) (lines : List Bytes) :
    EveryLineKeyed key (line :: lines) ↔
      (line ≠ [] → fields line ≠ []) ∧
        ((fields line).head? ≠ some key → EveryLineKeyed key lines) :=
  forall_passed_cons (P := fun line => line ≠ [] → fields line ≠ [])
    (fun _ hkey _ => fields_ne_nil_of_head hkey) line lines

theorem lookup_cons (key : Bytes) (index : ℤ) (line : Bytes) (lines : List Bytes) :
    lookup key index (line :: lines) =
      if (fields line).head? ≠ some key then lookup key index lines
      else if index < 0 then [] else (fields line).getD index.toNat [] := by
  unfold lookup
  by_cases hkey : (fields line).head? = some key
  · rw [List.find?_cons_of_pos (by simpa using hkey), if_neg (not_not.mpr hkey)]
  · rw [List.find?_cons_of_neg (by simpa using hkey), if_pos hkey]

theorem getLoop_eq_lookup_iff (key : Bytes) (index : ℤ) (lines : List Bytes) :
    getLoop key index bar 0 lines = .ok (lookup key index lines) ↔ EveryLineKeyed key lines := by
  induction lines with
  | nil => exact iff_of_true rfl nofun
  | cons line lines ih =>
    rw [getLoop_cons, lookup_cons, everyLineKeyed_cons]
    by_cases hbad : line ≠ [] ∧ fields line = []
    · rw [if_pos hbad]
      exact iff_of_false nofun fun h => h.1 hbad.1 hbad.2
    · have hgood : line ≠ [] → fields line ≠ [] := fun h1 h2 => hbad ⟨h1, h2⟩
      rw [if_neg hbad]
      by_cases hkey : (fields line).head? = some key
      · rw [if_neg (not_not.mpr hkey), if_neg (not_not.mpr hkey)]
        exact iff_of_true rfl ⟨hgood, fun h => absurd hkey h⟩
      · rw [if_pos hkey, if_pos hkey, ih]
        exact ⟨fun h => ⟨hgood, fun _ => h⟩, fun h => h.2 hkey⟩

theorem getLoop_valueOr (key : Bytes) (index : ℤ) (lines : List Bytes) :
    ValueOr .tokenIndex (getLoop key index bar 0 lines) (lookup key index lines) := by
  induction lines with
  | nil => exact Or.inl rfl
  | cons line lines ih =>
    rw [getLoop_cons, lookup_cons]
    by_cases hbad : line ≠ [] ∧ fields line = []
    · rw [if_pos hbad]
      exact Or.inr rfl
    · rw [if_neg hbad]
      by_cases hkey : (fields line).head? = some key
      · rw [if_neg (not_not.mpr hkey), if_neg (not_not.mpr hkey)]
        exact Or.inl rfl
      · rw [if_pos hkey, if_pos hkey]
        exact ih

theorem get_eq_getLoop (this : TextParse) (key : Bytes) (index : ℤ) :
    this.get key index = getLoop key index bar 0 this.m_data := by
  unfold get
  by_cases hempty : this.m_data = []
  · rw [hempty]
    rfl
  · rw [if_neg (by rwa [List.isEmpty_iff])]

theorem get_valueOr (this : TextParse) (key : Bytes) (index : ℤ) :
    ValueOr .tokenIndex (this.get key index) (lookup key index this.m_data) := by
  rw [get_eq_getLoop]
  exact getLoop_valueOr key index this.m_data

theorem get_eq_ok_iff (this : TextParse) (key : Bytes) (index : ℤ) (value : Bytes) :
    this.get key index = .ok value ↔
      EveryLineKeyed key this.m_data ∧ lookup key index this.m_data = value := by
  have hiff := getLoop_eq_lookup_iff key index this.m_data
  rw [← this.get_eq_getLoop] at hiff
  constructor
  · intro h
    rcases this.get_valueOr key index with hvalue | herror
    · rw [h] at hvalue
      obtain rfl := Except.ok.inj hvalue
      exact ⟨hiff.mp h, rfl⟩
    · rw [h] at herror
      cases herror
  · intro h
    obtain ⟨hkeyed, rfl⟩ := h
    exact hiff.mpr hkeyed

theorem contain_eq_ok_iff (this : TextParse) (key : Bytes) (found : Bool) :
    this.contain key = .ok found ↔
      EveryLineKeyed key this.m_data ∧ (lookup key 1 this.m_data != []) = found := by
  rw [contain, bind_eq_ok]
  constructor
  · intro h
    obtain ⟨value, hget, hfound⟩ := h
    obtain ⟨hkeyed, rfl⟩ := (this.get_eq_ok_iff key 1 value).mp hget
    exact ⟨hkeyed, Except.ok.inj hfound⟩
  · intro h
    obtain ⟨hkeyed, hfound⟩ := h
    exact ⟨_, (this.get_eq_ok_iff key 1 _).mpr ⟨hkeyed, rfl⟩, congrArg Except.ok hfound⟩

theorem contain_valueOr (this : TextParse) (key : Bytes) :
    ValueOr .tokenIndex (this.contain key) (lookup key 1 this.m_data != []) :=
  (this.get_valueOr key 1).map (· != [])

/-- `Get` on a received text is the lookup of its key, and stays inside the tokens
of every line, exactly when no line with content but without a field stands before
the line that is found (or anywhere, when none is). -/
theorem get_parse_iff (s key : Bytes) (index : ℤ) :
    (parse s).get key index = .ok (lookup key index (textLines s)) ↔
      EveryLineKeyed key (textLines s) := by
  rw [get_eq_getLoop, parse_m_data]
  exact getLoop_eq_lookup_iff key index (textLines s)

theorem get_parse_bar :
    ¬ (parse (ascii "|")).get (ascii "action") 1 =
      .ok (lookup (ascii "action") 1 (textLines (ascii "|"))) := by
  have hget : (parse (ascii "|")).get (ascii "action") 1 = .error .tokenIndex := by decide
  rw [hget]
  nofun

/-! ### Texts built from pairs -/

theorem ofPairs_m_data (data : List (Bytes × Bytes)) :
    (ofPairs data).m_data = data.map fun it => it.1 ++ bar.bytes ++ it.2 := by
  have hfold (this : TextParse) :
      (data.foldl (fun this it => this.add it.1 it.2) this).m_data =
        this.m_data ++ data.map fun it => it.1 ++ bar.bytes ++ it.2 := by
    induction data generalizing this with
    | nil => exact (List.append_nil _).symm
    | cons it data ih =>
      rw [List.foldl_cons, ih, List.map_cons]
      exact List.append_assoc _ [_] _
  exact hfold {}

/-- A key without a bar is the first field of its line, whatever the value is. -/
theorem fields_pair (key value : Bytes) (hkey : key ≠ []) (hbar : (124 : UInt8) ∉ key) :
    fields (key ++ bar.bytes ++ value) = key :: fields value := by
  have hsplit : (key ++ bar.bytes ++ value).splitOn (124 : UInt8) = key :: value.splitOn 124 := by
    rw [List.append_assoc]
    exact List.splitOn_append_cons_self_of_not_mem hbar value
  rw [fields, hsplit, List.filter_cons_of_pos (by simpa using hkey)]
  rfl

theorem get_ofPairs (data : List (Bytes × Bytes)) (key : Bytes) (index : ℤ)
    (hkeys : ∀ it ∈ data, it.1 ≠ [] ∧ (124 : UInt8) ∉ it.1) :
    (ofPairs data).get key index = .ok (lookup key index (ofPairs data).m_data) := by
  rw [get_eq_getLoop, getLoop_eq_lookup_iff]
  intro line hline _
  have hmem : line ∈ (ofPairs data).m_data := (List.takeWhile_sublist _).subset hline
  rw [ofPairs_m_data] at hmem
  obtain ⟨it, hit, rfl⟩ := List.mem_map.mp hmem
  obtain ⟨hne, hbar⟩ := hkeys it hit
  rw [fields_pair it.1 it.2 hne hbar]
  exact List.cons_ne_nil _ _

theorem lookup_ofPairs_of_not_mem (data : List (Bytes × Bytes)) (key : Bytes) (index : ℤ)
    (hkeys : ∀ it ∈ data, it.1 ≠ [] ∧ (124 : UInt8) ∉ it.1) (h : ∀ it ∈ data, it.1 ≠ key) :
    lookup key index (ofPairs data).m_data = [] := by
  have hnone : ((ofPairs data).m_data.find? fun line => (fields line).head? = some key) = none := by
    rw [List.find?_eq_none]
    intro line hline
    rw [ofPairs_m_data] at hline
    obtain ⟨it, hit, rfl⟩ := List.mem_map.mp hline
    obtain ⟨hne, hbar⟩ := hkeys it hit
    rw [fields_pair it.1 it.2 hne hbar]
    simpa using h it hit
  rw [lookup, hnone]

/-! ### Texts read back -/

/-- A line that parsing keeps, and keeps as it is. -/
structure CleanLine (line : Bytes) : Prop where
  ne_nil : line ≠ []
  newline_not_mem : (10 : UInt8) ∉ line
  carriageReturn_not_mem : (13 : UInt8) ∉ line

theorem getAsString_eq (this : TextParse) :
    this.getAsString = this.m_data.flatMap fun line => line ++ [10] := by
  have hfold (lines : List Bytes) (ret : Bytes) :
      lines.foldl (fun ret line => ret ++ (line ++ newline.bytes)) ret =
        ret ++ lines.flatMap fun line => line ++ [10] := by
    induction lines generalizing ret with
    | nil => exact (List.append_nil ret).symm
    | cons line lines ih =>
      rw [List.foldl_cons, ih, List.flatMap_cons, List.append_assoc]
      rfl
  exact hfold this.m_data []

theorem textLines_getAsString (this : TextParse)
    (h : ∀ line ∈ this.m_data, (10 : UInt8) ∉ line ∧ (13 : UInt8) ∉ line) :
    textLines this.getAsString = this.m_data.filter (· ≠ []) := by
  have hkept : ∀ line ∈ this.m_data.filter (· ≠ []), line.filter (· ≠ (13 : UInt8)) = line := by
    intro line hline
    have hcarriage := (h line (List.mem_of_mem_filter hline)).2
    rw [List.filter_eq_self]
    intro byte hbyte
    exact decide_eq_true fun heq => hcarriage (heq ▸ hbyte)
  have hlast : ([[]] : List Bytes).filter (· ≠ []) = [] := rfl
  rw [textLines, getAsString_eq, Split.splitOn_flatMap fun line hline => (h line hline).1,
    List.filter_append, hlast, List.append_nil, List.map_congr_left hkept]
  exact List.map_id _

theorem mem_textLines {s line : Bytes} (h : line ∈ textLines s) :
    (10 : UInt8) ∉ line ∧ (13 : UInt8) ∉ line := by
  obtain ⟨piece, hpiece, rfl⟩ := List.mem_map.mp h
  have hnewline := Split.not_mem_of_mem_splitOn (List.mem_of_mem_filter hpiece)
  refine ⟨fun hmem => hnewline (List.mem_of_mem_filter hmem), ?_⟩
  intro hmem
  cases List.of_mem_filter hmem

theorem clean_of_mem_fields {s line field : Bytes} (hline : line ∈ textLines s)
    (hfield : field ∈ fields line) : Template.Clean 10 124 field := by
  have hpiece := List.mem_of_mem_filter hfield
  refine ⟨?_, Split.not_mem_of_mem_splitOn hpiece⟩
  intro hmem
  exact (mem_textLines hline).1 ((Split.infix_of_mem_splitOn hpiece).subset hmem)

theorem lookup_cases (key : Bytes) (index : ℤ) (lines : List Bytes) :
    lookup key index lines = [] ∨ ∃ line ∈ lines, lookup key index lines ∈ fields line := by
  unfold lookup
  cases hfind : lines.find? fun line => (fields line).head? = some key with
  | none => exact Or.inl rfl
  | some line =>
    by_cases hneg : index < 0
    · exact Or.inl (if_pos hneg)
    simp only [if_neg hneg]
    by_cases hlong : index.toNat < (fields line).length
    · rw [List.getD_eq_getElem _ _ hlong]
      exact Or.inr ⟨line, List.mem_of_find?_eq_some hfind, List.getElem_mem hlong⟩
    · exact Or.inl (List.getD_eq_default _ _ (by omega))

/-- What is looked up in a received text has no separator in it. -/
theorem clean_lookup (s key : Bytes) (index : ℤ) :
    Template.Clean 10 124 (lookup key index (textLines s)) := by
  rcases lookup_cases key index (textLines s) with hnil | ⟨line, hline, hfield⟩
  · rw [hnil]
    exact Template.clean_nil
  · exact clean_of_mem_fields hline hfield

/-- Parsing a text gives back the lines it was made of exactly when it loses none of
them and nothing in them. -/
theorem parse_getAsString_iff (this : TextParse) :
    (parse this.getAsString).m_data = this.m_data ↔ ∀ line ∈ this.m_data, CleanLine line := by
  rw [parse_m_data]
  constructor
  · intro h
    have hbytes : ∀ line ∈ this.m_data, (10 : UInt8) ∉ line ∧ (13 : UInt8) ∉ line := by
      intro line hline
      rw [← h] at hline
      exact mem_textLines hline
    rw [textLines_getAsString this hbytes, List.filter_eq_self] at h
    intro line hline
    exact ⟨of_decide_eq_true (h line hline), (hbytes line hline).1, (hbytes line hline).2⟩
  · intro h
    rw [textLines_getAsString this fun line hline =>
      ⟨(h line hline).newline_not_mem, (h line hline).carriageReturn_not_mem⟩, List.filter_eq_self]
    exact fun line hline => decide_eq_true (h line hline).ne_nil

end TextParse

/-- The arguments of one `Add`. -/
structure Entry where
  key : Bytes
  value : Bytes
  token : Bytes := bar.bytes
  deriving DecidableEq, Repr

namespace Entry

def line (entry : Entry) : Bytes := entry.key ++ entry.token ++ entry.value

/-- An entry that is read as a key and a value. -/
structure Keyed (entry : Entry) : Prop where
  token_eq : entry.token = bar.bytes
  key_ne_nil : entry.key ≠ []
  bar_not_mem_key : (124 : UInt8) ∉ entry.key
  bar_not_mem_value : (124 : UInt8) ∉ entry.value

theorem fields_line {entry : Entry} (h : entry.Keyed) :
    TextParse.fields entry.line = entry.key :: [entry.value].filter (· ≠ []) := by
  rw [line, h.token_eq, TextParse.fields_pair _ _ h.key_ne_nil h.bar_not_mem_key, TextParse.fields,
    List.splitOn_eq_singleton h.bar_not_mem_value]

end Entry

namespace TextParse

def ofEntries (entries : List Entry) : TextParse :=
  entries.foldl (fun this entry => this.add entry.key entry.value entry.token) {}

theorem ofEntries_m_data (entries : List Entry) :
    (ofEntries entries).m_data = entries.map Entry.line := by
  have hfold (this : TextParse) :
      (entries.foldl (fun this entry => this.add entry.key entry.value entry.token) this).m_data =
        this.m_data ++ entries.map Entry.line := by
    induction entries generalizing this with
    | nil => exact (List.append_nil _).symm
    | cons entry entries ih =>
      rw [List.foldl_cons, ih, List.map_cons]
      exact List.append_assoc _ [_] _
  exact hfold {}

theorem lookup_lines {entries : List Entry} (h : ∀ entry ∈ entries, entry.Keyed) {key : Bytes}
    {entry : Entry} (hfirst : (entries.find? fun entry => entry.key = key) = some entry) :
    lookup key 1 (entries.map Entry.line) = entry.value := by
  induction entries with
  | nil => cases hfirst
  | cons other entries ih =>
    obtain ⟨hother, hentries⟩ := List.forall_mem_cons.mp h
    rw [List.map_cons, lookup_cons, Entry.fields_line hother]
    by_cases hkey : other.key = key
    · rw [List.find?_cons_of_pos (by simpa using hkey)] at hfirst
      obtain rfl := Option.some.inj hfirst
      have hhead : (other.key :: [other.value].filter (· ≠ [])).head? = some key :=
        congrArg some hkey
      rw [if_neg (not_not.mpr hhead)]
      cases hvalue : other.value with
      | nil => rfl
      | cons b value => rfl
    · rw [List.find?_cons_of_neg (by simpa using hkey)] at hfirst
      have hhead : (other.key :: [other.value].filter (· ≠ [])).head? ≠ some key :=
        fun heq => hkey (Option.some.inj heq)
      rw [if_pos hhead]
      exact ih hentries hfirst

theorem everyLineKeyed_lines {entries : List Entry} (h : ∀ entry ∈ entries, entry.Keyed)
    (key : Bytes) : EveryLineKeyed key (entries.map Entry.line) := by
  intro line hline _
  obtain ⟨entry, hentry, rfl⟩ := List.mem_map.mp ((List.takeWhile_sublist _).subset hline)
  rw [Entry.fields_line (h entry hentry)]
  exact List.cons_ne_nil _ _

theorem lookup_ofPairs {data : List (Bytes × Bytes)}
    (hkeyed : ∀ it ∈ data, it.1 ≠ [] ∧ (124 : UInt8) ∉ it.1 ∧ (124 : UInt8) ∉ it.2)
    {key value : Bytes} (hfirst : (data.find? fun it => it.1 = key) = some (key, value)) :
    lookup key 1 (ofPairs data).m_data = value := by
  have hentries : (ofPairs data).m_data =
      (data.map fun it => (⟨it.1, it.2, bar.bytes⟩ : Entry)).map Entry.line := by
    rw [ofPairs_m_data, List.map_map]
    rfl
  have hlines : ∀ entry ∈ data.map fun it => (⟨it.1, it.2, bar.bytes⟩ : Entry), entry.Keyed := by
    intro entry hentry
    obtain ⟨it, hit, rfl⟩ := List.mem_map.mp hentry
    obtain ⟨hne, hkey, hvalue⟩ := hkeyed it hit
    exact ⟨rfl, hne, hkey, hvalue⟩
  have hentry : ((data.map fun it => (⟨it.1, it.2, bar.bytes⟩ : Entry)).find?
      fun entry => entry.key = key) = some ⟨key, value, bar.bytes⟩ := by
    rw [List.find?_map]
    exact congrArg (Option.map _) hfirst
  rw [hentries, lookup_lines hlines hentry]

end TextParse

end GrowServer
