import GrowServer.Utils.DialogBuilder
import GrowServer.Utils.TextNumber

/-!
# The calls of a dialog (Utils/Wrapper/DialogBuilder.cpp)

A dialog is built by a sequence of calls, and its receiver sees a text. What the receiver can
tell of a call is its line cut into fields; read back so, the calls are found again exactly
when no text in them has a separator.
-/

namespace GrowServer
open LittleEndian DialogBuilder

/-- A call of the builder with its arguments; `AddCustomLabel` and the floating-point values
of `EmbedData` are left out. -/
inductive DialogCall where
  | setDefaultColor (color : UInt8)
  | textScalingString (scale : Bytes)
  | embedData (name value : Bytes)
  | embedIntegral (name : Bytes) (value : ℤ)
  | addCustomBreak
  | addSpacer (size : SizeType)
  | setCustomSpacing (x y : Int32)
  | addLabel (label : Bytes) (direction : Direction) (size : SizeType)
  | addLabelWithIcon (label : Bytes) (itemId : Int32) (direction : Direction) (size : SizeType)
  | addTextbox (label : Bytes)
  | addSmallText (label : Bytes)
  | addTextInput (name label labelInside : Bytes) (maxLength : Int32)
  | addTextInputPassword (name label labelInside : Bytes) (maxLength : Int32)
  | addTextboxInput (name label textInside : Bytes) (maxLength lines : Int32)
  | addButton (name label buttonFlag : Bytes)
  | endDialog (name cancel ok : Bytes)
  deriving DecidableEq

inductive DialogKeyword where
  | setDefaultColor
  | textScalingString
  | embedData
  | addCustomBreak
  | addSpacer
  | setCustomSpacing
  | addLabel
  | addLabelWithIcon
  | addTextbox
  | addSmallText
  | addTextInput
  | addTextInputPassword
  | addButton
  | endDialog
  deriving DecidableEq

namespace DialogKeyword

def text : DialogKeyword → Bytes
  | setDefaultColor => ascii "set_default_color"
  | textScalingString => ascii "text_scaling_string"
  | embedData => ascii "embed_data"
  | addCustomBreak => ascii "add_custom_break"
  | addSpacer => ascii "add_spacer"
  | setCustomSpacing => ascii "set_custom_spacing"
  | addLabel => ascii "add_label"
  | addLabelWithIcon => ascii "add_label_with_icon"
  | addTextbox => ascii "add_textbox"
  | addSmallText => ascii "add_smalltext"
  | addTextInput => ascii "add_text_input"
  | addTextInputPassword => ascii "add_text_input_password"
  | addButton => ascii "add_button"
  | endDialog => ascii "end_dialog"

def all : List DialogKeyword := [setDefaultColor, textScalingString, embedData, addCustomBreak,
  addSpacer, setCustomSpacing, addLabel, addLabelWithIcon, addTextbox, addSmallText, addTextInput,
  addTextInputPassword, addButton, endDialog]

def ofText (word : Bytes) : Option DialogKeyword := all.find? fun keyword => keyword.text = word

theorem ofText_text (keyword : DialogKeyword) : ofText keyword.text = some keyword := by
  cases keyword <;> decide +kernel

theorem clean_text (keyword : DialogKeyword) : Template.Clean 10 124 keyword.text := by
  cases keyword <;> decide +kernel

end DialogKeyword

namespace DialogCall

def run (this : DialogBuilder) : DialogCall → DialogBuilder
  | setDefaultColor color => this.setDefaultColor color
  | textScalingString scale => this.textScalingString scale
  | embedData name value => this.embedData name value
  | embedIntegral name value => this.embedIntegral name value
  | addCustomBreak => this.addCustomBreak
  | addSpacer size => this.addSpacer size
  | setCustomSpacing x y => this.setCustomSpacing x y
  | addLabel label direction size => this.addLabel label direction size
  | addLabelWithIcon label itemId direction size =>
    this.addLabelWithIcon label itemId direction size
  | addTextbox label => this.addTextbox label
  | addSmallText label => this.addSmallText label
  | addTextInput name label labelInside maxLength =>
    this.addTextInput name label labelInside maxLength.toInt
  | addTextInputPassword name label labelInside maxLength =>
    this.addTextInputPassword name label labelInside maxLength.toInt
  | addTextboxInput name label textInside maxLength lines =>
    this.addTextboxInput name label textInside maxLength lines
  | addButton name label buttonFlag => this.addButton name label buttonFlag
  | endDialog name cancel ok => this.endDialog name cancel ok

def built (calls : List DialogCall) : DialogBuilder := calls.foldl run {}

/-- The texts of a call that is shown hold no separator. -/
def Clean : DialogCall → Prop
  | setDefaultColor color => Template.Clean 10 124 [color]
  | textScalingString scale => Template.Clean 10 124 scale
  | embedData name value => Template.Clean 10 124 name ∧ Template.Clean 10 124 value
  | embedIntegral name _ => Template.Clean 10 124 name
  | addLabel label _ _ => Template.Clean 10 124 label
  | addLabelWithIcon label _ _ _ => Template.Clean 10 124 label
  | addTextbox label => Template.Clean 10 124 label
  | addSmallText label => Template.Clean 10 124 label
  | addTextInput name label labelInside _ =>
    Template.Clean 10 124 name ∧ Template.Clean 10 124 label ∧ Template.Clean 10 124 labelInside
  | addTextInputPassword name label labelInside _ =>
    Template.Clean 10 124 name ∧ Template.Clean 10 124 label ∧ Template.Clean 10 124 labelInside
  | addButton name label buttonFlag =>
    Template.Clean 10 124 name ∧ Template.Clean 10 124 label ∧ Template.Clean 10 124 buttonFlag
  | endDialog name cancel ok =>
    Template.Clean 10 124 name ∧ Template.Clean 10 124 cancel ∧ Template.Clean 10 124 ok
  | _ => True

/-- The call as it can be seen: one that appends nothing is not, and a number that is
embedded is the text of its low 32 bits. -/
def seen : DialogCall → Option DialogCall
  | addTextboxInput _ _ _ _ _ => none
  | embedIntegral name value => some (embedData name (toDecimal (Int32.ofInt value).toInt))
  | call => some call

def spacing (x y : Int32) : Bytes :=
  ascii "x:" ++ toDecimal x.toInt ++ ascii ";y:" ++ toDecimal y.toInt

/-- The line that a call appends, in fields. -/
def fields : DialogCall → Option (DialogKeyword × List Bytes)
  | setDefaultColor color => some (.setDefaultColor, [ascii "`" ++ [color]])
  | textScalingString scale => some (.textScalingString, [scale])
  | embedData name value => some (.embedData, [name, value])
  | embedIntegral name value => some (.embedData, [name, toDecimal (Int32.ofInt value).toInt])
  | addCustomBreak => some (.addCustomBreak, [[]])
  | addSpacer size => some (.addSpacer, [getSize size, []])
  | setCustomSpacing x y => some (.setCustomSpacing, [spacing x y, []])
  | addLabel label direction size =>
    some (.addLabel, [getSize size, label, getDirection direction, ascii "0", []])
  | addLabelWithIcon label itemId direction size =>
    some (.addLabelWithIcon,
      [getSize size, label, getDirection direction, toDecimal itemId.toInt, []])
  | addTextbox label => some (.addTextbox, [label, []])
  | addSmallText label => some (.addSmallText, [label, []])
  | addTextInput name label labelInside maxLength =>
    some (.addTextInput, [name, label, labelInside, toDecimal maxLength.toInt, []])
  | addTextInputPassword name label labelInside maxLength =>
    some (.addTextInputPassword, [name, label, labelInside, toDecimal maxLength.toInt, []])
  | addTextboxInput _ _ _ _ _ => none
  | addButton name label buttonFlag =>
    some (.addButton, [name, label, buttonFlag, ascii "0", ascii "0", []])
  | endDialog name cancel ok => some (.endDialog, [name, cancel, ok, []])

def line (entry : DialogKeyword × List Bytes) : List Bytes := entry.1.text :: entry.2

/-! ### Reading a line -/

def numberOf (text : Bytes) : Option Int32 :=
  match StdNumber.stoi text with
  | .ok n => some (Int32.ofInt n)
  | .error _ => none

def sizeOf (text : Bytes) : Option SizeType :=
  [SizeType.small, .big].find? fun size => getSize size = text

def directionOf (text : Bytes) : Option Direction :=
  [Direction.none, .left, .right, .staticBlueFrame].find? fun direction =>
    getDirection direction = text

def spacingOf (text : Bytes) : Option (Int32 × Int32) :=
  match text.splitOn (59 : UInt8) with
  | [120 :: 58 :: x, 121 :: 58 :: y] => do return (← numberOf x, ← numberOf y)
  | _ => none

def ofFields (keyword : DialogKeyword) (args : List Bytes) : Option DialogCall :=
  match keyword with
  | .setDefaultColor =>
    match args with
    | [[96, color]] => some (setDefaultColor color)
    | _ => none
  | .textScalingString =>
    match args with
    | [scale] => some (textScalingString scale)
    | _ => none
  | .embedData =>
    match args with
    | [name, value] => some (embedData name value)
    | _ => none
  | .addCustomBreak =>
    match args with
    | [[]] => some addCustomBreak
    | _ => none
  | .addSpacer =>
    match args with
    | [size, []] => (sizeOf size).map addSpacer
    | _ => none
  | .setCustomSpacing =>
    match args with
    | [text, []] => (spacingOf text).map fun (x, y) => setCustomSpacing x y
    | _ => none
  | .addLabel =>
    match args with
    | [size, label, direction, [48], []] => do
      return addLabel label (← directionOf direction) (← sizeOf size)
    | _ => none
  | .addLabelWithIcon =>
    match args with
    | [size, label, direction, itemId, []] => do
      return addLabelWithIcon label (← numberOf itemId) (← directionOf direction) (← sizeOf size)
    | _ => none
  | .addTextbox =>
    match args with
    | [label, []] => some (addTextbox label)
    | _ => none
  | .addSmallText =>
    match args with
    | [label, []] => some (addSmallText label)
    | _ => none
  | .addTextInput =>
    match args with
    | [name, label, labelInside, maxLength, []] =>
      (numberOf maxLength).map (addTextInput name label labelInside)
    | _ => none
  | .addTextInputPassword =>
    match args with
    | [name, label, labelInside, maxLength, []] =>
      (numberOf maxLength).map (addTextInputPassword name label labelInside)
    | _ => none
  | .addButton =>
    match args with
    | [name, label, buttonFlag, [48], [48], []] => some (addButton name label buttonFlag)
    | _ => none
  | .endDialog =>
    match args with
    | [name, cancel, ok, []] => some (endDialog name cancel ok)
    | _ => none

def ofLine : List Bytes → Option DialogCall
  | [] => none
  | word :: args => do ofFields (← DialogKeyword.ofText word) args

/-- What a receiver finds in the text of a dialog, line by line. -/
def read (text : Bytes) : List (Option DialogCall) := (Template.parse 10 124 text).tail.map ofLine

theorem numberOf_toDecimal (n : Int32) : numberOf (toDecimal n.toInt) = some n := by
  have hle := n.le_toInt
  have hlt := n.toInt_lt
  have hint : StdNumber.stoi (toDecimal n.toInt) = .ok n.toInt := by
    rw [StdNumber.stoi_toDecimal, if_neg (by omega)]
  simp only [numberOf, hint, Int32.ofInt_toInt]

theorem sizeOf_getSize (size : SizeType) : sizeOf (getSize size) = some size := by
  cases size <;> decide

theorem directionOf_getDirection (direction : Direction) :
    directionOf (getDirection direction) = some direction := by
  cases direction <;> decide

theorem semicolon_not_mem_toDecimal (z : ℤ) : (59 : UInt8) ∉ toDecimal z := by
  intro h
  rcases TextParse.mem_toDecimal h with hsign | hdigit
  · exact absurd hsign (by decide)
  · exact absurd hdigit.2 (by decide)

theorem spacingOf_spacing (x y : Int32) : spacingOf (spacing x y) = some (x, y) := by
  have hx : (59 : UInt8) ∉ ascii "x:" ++ toDecimal x.toInt := by
    have hletters : (59 : UInt8) ∉ ascii "x:" := by decide
    simp [hletters, semicolon_not_mem_toDecimal]
  have hy : (59 : UInt8) ∉ ascii "y:" ++ toDecimal y.toInt := by
    have hletters : (59 : UInt8) ∉ ascii "y:" := by decide
    simp [hletters, semicolon_not_mem_toDecimal]
  have hsplit : (spacing x y).splitOn (59 : UInt8) =
      [ascii "x:" ++ toDecimal x.toInt, ascii "y:" ++ toDecimal y.toInt] := by
    have hjoin : spacing x y =
        (ascii "x:" ++ toDecimal x.toInt) ++ 59 :: (ascii "y:" ++ toDecimal y.toInt) := by
      simp [spacing, ascii]
    rw [hjoin, List.splitOn_append_cons_self_of_not_mem hx, List.splitOn_eq_singleton hy]
  rw [spacingOf, hsplit]
  show (do return (← numberOf (toDecimal x.toInt), ← numberOf (toDecimal y.toInt))) = some (x, y)
  rw [numberOf_toDecimal, numberOf_toDecimal]
  rfl

/-- The fields of a call are read as what is seen of it. -/
theorem ofFields_fields (call : DialogCall) :
    (call.fields.bind fun entry => ofFields entry.1 entry.2) = call.seen := by
  cases call with
  | addSpacer size =>
    show (sizeOf (getSize size)).map addSpacer = _
    rw [sizeOf_getSize]
    rfl
  | setCustomSpacing x y =>
    show (spacingOf (spacing x y)).map (fun (x, y) => setCustomSpacing x y) = _
    rw [spacingOf_spacing]
    rfl
  | addLabel label direction size =>
    show ((directionOf (getDirection direction)).bind fun direction =>
      (sizeOf (getSize size)).bind fun size => some (addLabel label direction size)) = _
    rw [directionOf_getDirection, sizeOf_getSize]
    rfl
  | addLabelWithIcon label itemId direction size =>
    show ((numberOf (toDecimal itemId.toInt)).bind fun itemId =>
      (directionOf (getDirection direction)).bind fun direction =>
        (sizeOf (getSize size)).bind fun size =>
          some (addLabelWithIcon label itemId direction size)) = _
    rw [numberOf_toDecimal, directionOf_getDirection, sizeOf_getSize]
    rfl
  | addTextInput name label labelInside maxLength =>
    show (numberOf (toDecimal maxLength.toInt)).map (addTextInput name label labelInside) = _
    rw [numberOf_toDecimal]
    rfl
  | addTextInputPassword name label labelInside maxLength =>
    show (numberOf (toDecimal maxLength.toInt)).map (addTextInputPassword name label labelInside) = _
    rw [numberOf_toDecimal]
    rfl
  | _ => rfl

/-- What is read from fields without separators has none. -/
theorem clean_of_ofFields {keyword : DialogKeyword} {args : List Bytes} {call : DialogCall}
    (h : ofFields keyword args = some call) (hargs : ∀ arg ∈ args, Template.Clean 10 124 arg) :
    call.Clean := by
  cases keyword with
  | setDefaultColor =>
    simp only [ofFields] at h
    split at h
    · rename_i color
      obtain rfl := Option.some.inj h
      simp only [List.forall_mem_cons] at hargs
      refine ⟨fun hmem => hargs.1.newline_not_mem ?_, fun hmem => hargs.1.bar_not_mem ?_⟩
      · exact List.mem_cons_of_mem _ hmem
      · exact List.mem_cons_of_mem _ hmem
    · cases h
  | textScalingString | addTextbox | addSmallText =>
    simp only [ofFields] at h
    split at h
    · obtain rfl := Option.some.inj h
      simp only [List.forall_mem_cons] at hargs
      exact hargs.1
    · cases h
  | embedData =>
    simp only [ofFields] at h
    split at h
    · obtain rfl := Option.some.inj h
      simp only [List.forall_mem_cons] at hargs
      exact ⟨hargs.1, hargs.2.1⟩
    · cases h
  | addCustomBreak =>
    simp only [ofFields] at h
    split at h
    · obtain rfl := Option.some.inj h
      trivial
    · cases h
  | addSpacer =>
    simp only [ofFields] at h
    split at h
    · obtain ⟨size, -, rfl⟩ := Option.map_eq_some_iff.mp h
      trivial
    · cases h
  | setCustomSpacing =>
    simp only [ofFields] at h
    split at h
    · obtain ⟨⟨x, y⟩, -, rfl⟩ := Option.map_eq_some_iff.mp h
      trivial
    · cases h
  | addLabel =>
    simp only [ofFields] at h
    split at h
    · simp only [bind, Option.bind_eq_some_iff] at h
      obtain ⟨direction, -, size, -, hcall⟩ := h
      obtain rfl := Option.some.inj hcall
      simp only [List.forall_mem_cons] at hargs
      exact hargs.2.1
    · cases h
  | addLabelWithIcon =>
    simp only [ofFields] at h
    split at h
    · simp only [bind, Option.bind_eq_some_iff] at h
      obtain ⟨itemId, -, direction, -, size, -, hcall⟩ := h
      obtain rfl := Option.some.inj hcall
      simp only [List.forall_mem_cons] at hargs
      exact hargs.2.1
    · cases h
  | addTextInput | addTextInputPassword =>
    simp only [ofFields] at h
    split at h
    · obtain ⟨maxLength, -, rfl⟩ := Option.map_eq_some_iff.mp h
      simp only [List.forall_mem_cons] at hargs
      exact ⟨hargs.1, hargs.2.1, hargs.2.2.1⟩
    · cases h
  | addButton | endDialog =>
    simp only [ofFields] at h
    split at h
    · obtain rfl := Option.some.inj h
      simp only [List.forall_mem_cons] at hargs
      exact ⟨hargs.1, hargs.2.1, hargs.2.2.1⟩
    · cases h

theorem clean_of_ofLine {fields : List Bytes} {call : DialogCall} (h : ofLine fields = some call)
    (hfields : ∀ field ∈ fields, Template.Clean 10 124 field) : call.Clean := by
  cases fields with
  | nil => cases h
  | cons word args =>
    obtain ⟨keyword, -, hcall⟩ := Option.bind_eq_some_iff.mp h
    exact clean_of_ofFields hcall (List.forall_mem_cons.mp hfields).2

theorem clean_of_read {text : Bytes} {call : DialogCall} (h : some call ∈ read text) :
    call.Clean := by
  obtain ⟨fields, hfields, hread⟩ := List.mem_map.mp h
  refine clean_of_ofLine hread ?_
  exact fun field hfield => Template.clean_of_mem_parse (List.mem_of_mem_tail hfields) hfield

theorem clean_of_seen {call shown : DialogCall} (h : call.seen = some shown) (hshown : shown.Clean) :
    call.Clean := by
  cases call with
  | addTextboxInput name label textInside maxLength lines => cases h
  | embedIntegral name value =>
    obtain rfl := Option.some.inj h
    exact hshown.1
  | _ =>
    obtain rfl := Option.some.inj h
    exact hshown

theorem not_seen {call : DialogCall} (h : call.seen = none) : call.Clean ∧ call.fields = none := by
  cases call with
  | addTextboxInput name label textInside maxLength lines => exact ⟨trivial, rfl⟩
  | _ => cases h

/-! ### The text of the calls -/

theorem clean_toDecimal (z : ℤ) : Template.Clean 10 124 (toDecimal z) := by
  refine ⟨?_, TextParse.bar_not_mem_toDecimal z⟩
  intro h
  rcases TextParse.mem_toDecimal h with hsign | hdigit
  · exact absurd hsign (by decide)
  · exact absurd hdigit.1 (by decide)

theorem clean_spacing (x y : Int32) : Template.Clean 10 124 (spacing x y) := by
  have hx : Template.Clean 10 124 (ascii "x:") := by decide
  have hy : Template.Clean 10 124 (ascii ";y:") := by decide
  exact ((hx.append (clean_toDecimal _)).append hy).append (clean_toDecimal _)

theorem clean_getSize (size : SizeType) : Template.Clean 10 124 (getSize size) := by
  cases size <;> decide

theorem clean_getDirection (direction : Direction) :
    Template.Clean 10 124 (getDirection direction) := by
  cases direction <;> decide

theorem clean_fields {call : DialogCall} (h : call.Clean) {entry : DialogKeyword × List Bytes}
    (hentry : call.fields = some entry) : ∀ field ∈ entry.2, Template.Clean 10 124 field := by
  have hnil : Template.Clean (10 : UInt8) 124 [] := Template.clean_nil
  have hzero : Template.Clean 10 124 (ascii "0") := by decide
  have hcolor : Template.Clean 10 124 (ascii "`") := by decide
  cases call with
  | addTextboxInput name label textInside maxLength lines => cases hentry
  | setDefaultColor color =>
    obtain rfl := Option.some.inj hentry
    simpa using hcolor.append h
  | _ =>
    obtain rfl := Option.some.inj hentry
    simp_all [Clean, clean_toDecimal, clean_spacing, clean_getSize, clean_getDirection]

theorem holds_run {this : DialogBuilder} {commands : List (List Bytes)} (h : this.Holds commands)
    (call : DialogCall) :
    (call.run this).Holds (commands ++ (call.fields.map line).toList) := by
  cases call with
  | setDefaultColor color => exact h.setDefaultColor color
  | textScalingString scale =>
    refine h.append ?_
    simp [line, DialogKeyword.text, Template.renderLine, ascii]
  | embedData name value =>
    refine h.append ?_
    simp [line, DialogKeyword.text, Template.renderLine, ascii, pipe]
  | embedIntegral name value =>
    refine h.append ?_
    simp [line, DialogKeyword.text, Template.renderLine, ascii, pipe]
  | addCustomBreak => exact h.append rfl
  | addSpacer size => exact h.addSpacer size
  | setCustomSpacing x y =>
    refine h.append ?_
    simp [line, DialogKeyword.text, Template.renderLine, ascii, pipe, spacing]
  | addLabel label direction size => exact h.addLabel label direction size
  | addLabelWithIcon label itemId direction size =>
    refine h.append ?_
    simp [line, DialogKeyword.text, Template.renderLine, ascii, pipe]
  | addTextbox label => exact h.addTextbox label
  | addSmallText label =>
    refine h.append ?_
    simp [line, DialogKeyword.text, Template.renderLine, ascii, pipe]
  | addTextInput name label labelInside maxLength =>
    exact h.addTextInput name label labelInside maxLength.toInt
  | addTextInputPassword name label labelInside maxLength =>
    exact h.addTextInputPassword name label labelInside maxLength.toInt
  | addTextboxInput name label textInside maxLength lines =>
    rwa [fields, Option.map_none, Option.toList_none, List.append_nil]
  | addButton name label buttonFlag =>
    refine h.append ?_
    simp [line, DialogKeyword.text, Template.renderLine, ascii, pipe]
  | endDialog name cancel ok => exact h.endDialog name cancel ok

theorem holds_built (calls : List DialogCall) :
    (built calls).Holds ((calls.filterMap fields).map line) := by
  have hrun : ∀ (calls : List DialogCall) {this : DialogBuilder} {commands : List (List Bytes)},
      this.Holds commands →
        (calls.foldl run this).Holds (commands ++ (calls.filterMap fields).map line) := by
    intro calls
    induction calls with
    | nil =>
      intro this commands h
      simpa using h
    | cons call calls ih =>
      intro this commands h
      have hrest := ih (holds_run h call)
      rw [List.append_assoc] at hrest
      cases hfields : call.fields with
      | none => simpa [hfields] using hrest
      | some entry => simpa [hfields] using hrest
  exact hrun calls holds_empty

theorem parse_built {calls : List DialogCall} (h : ∀ call ∈ calls, call.Clean) :
    Template.parse 10 124 (built calls).m_result = [[]] :: (calls.filterMap fields).map line := by
  rw [holds_built calls]
  refine Template.parse_render (by decide) ⟨List.cons_ne_nil _ _, ?_, ?_⟩
  · intro fields hfields
    rcases List.mem_cons.mp hfields with rfl | hfields
    · exact List.cons_ne_nil _ _
    · obtain ⟨entry, -, rfl⟩ := List.mem_map.mp hfields
      exact List.cons_ne_nil _ _
  · intro fields hfields field hfield
    rcases List.mem_cons.mp hfields with rfl | hfields
    · rw [List.mem_singleton.mp hfield]
      exact Template.clean_nil
    · obtain ⟨entry, hentry, rfl⟩ := List.mem_map.mp hfields
      obtain ⟨call, hcall, hline⟩ := List.mem_filterMap.mp hentry
      rcases List.mem_cons.mp hfield with rfl | hfield
      · exact entry.1.clean_text
      · exact clean_fields (h call hcall) hline field hfield

theorem ofLine_line (entry : DialogKeyword × List Bytes) :
    ofLine (line entry) = ofFields entry.1 entry.2 := by
  show (DialogKeyword.ofText entry.1.text).bind _ = _
  rw [entry.1.ofText_text, Option.bind_some]

theorem map_ofLine (calls : List DialogCall) :
    ((calls.filterMap fields).map line).map ofLine = (calls.filterMap seen).map some := by
  induction calls with
  | nil => rfl
  | cons call calls ih =>
    have hcall := ofFields_fields call
    cases hseen : call.seen with
    | none =>
      have hfields := (not_seen hseen).2
      rw [List.filterMap_cons_none hfields, List.filterMap_cons_none hseen, ih]
    | some shown =>
      rw [hseen] at hcall
      obtain ⟨entry, hfields, hread⟩ := Option.bind_eq_some_iff.mp hcall
      rw [List.filterMap_cons_some hfields, List.filterMap_cons_some hseen, List.map_cons,
        List.map_cons, List.map_cons, ofLine_line, hread, ih]

/-- The text of a dialog is read back as the calls it was built by, as far as they are seen,
exactly when no text in them has a newline or a bar. -/
theorem dialog_read_back_iff (calls : List DialogCall) :
    read (built calls).m_result = (calls.filterMap seen).map some ↔
      ∀ call ∈ calls, call.Clean := by
  constructor
  · intro h call hcall
    cases hseen : call.seen with
    | none => exact (not_seen hseen).1
    | some shown =>
      have hread : some shown ∈ read (built calls).m_result := by
        rw [h]
        exact List.mem_map_of_mem (List.mem_filterMap.mpr ⟨call, hcall, hseen⟩)
      exact clean_of_seen hseen (clean_of_read hread)
  · intro h
    rw [read, parse_built h, List.tail_cons, map_ofLine]

end DialogCall

end GrowServer
