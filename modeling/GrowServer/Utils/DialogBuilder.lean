import GrowServer.Lib.LittleEndian
import GrowServer.Lib.Template

/-!
# DialogBuilder (Utils/Wrapper/DialogBuilder.cpp)

The text of a dialog, one command a line. Nothing is escaped.
-/

namespace GrowServer
open LittleEndian

def toDecimal (n : ℤ) : Bytes := ascii (toString n)

inductive SizeType where
  | small
  | big
  deriving DecidableEq, Repr

inductive Direction where
  | none
  | left
  | right
  | staticBlueFrame
  deriving DecidableEq, Repr

structure DialogBuilder where
  m_result : Bytes := []
  deriving DecidableEq, Repr

namespace DialogBuilder

def getSize : SizeType → Bytes
  | .small => ascii "small"
  | .big => ascii "big"

def getDirection : Direction → Bytes
  | .left => ascii "left"
  | .right => ascii "right"
  | .staticBlueFrame => ascii "staticBlueFrame"
  | .none => []

def append (this : DialogBuilder) (s : Bytes) : DialogBuilder :=
  { this with m_result := this.m_result ++ s }

def pipe : Bytes := ascii "|"

def setDefaultColor (this : DialogBuilder) (color : UInt8) : DialogBuilder :=
  this.append (ascii "\nset_default_color|`" ++ [color])

def textScalingString (this : DialogBuilder) (scale : Bytes) : DialogBuilder :=
  this.append (ascii "\ntext_scaling_string|" ++ scale)

def embedData (this : DialogBuilder) (name value : Bytes) : DialogBuilder :=
  this.append (ascii "\nembed_data|" ++ name ++ pipe ++ value)

-- a value of any integral type is cast to `int32_t` before it is printed
def embedIntegral (this : DialogBuilder) (name : Bytes) (value : ℤ) : DialogBuilder :=
  this.append (ascii "\nembed_data|" ++ name ++ pipe ++ toDecimal (Int32.ofInt value).toInt)

def addCustomBreak (this : DialogBuilder) : DialogBuilder := this.append (ascii "\nadd_custom_break|")

def addSpacer (this : DialogBuilder) (size : SizeType := .small) : DialogBuilder :=
  this.append (ascii "\nadd_spacer|" ++ getSize size ++ pipe)

def setCustomSpacing (this : DialogBuilder) (x y : Int32) : DialogBuilder :=
  this.append (ascii "\nset_custom_spacing|x:" ++ toDecimal x.toInt ++ ascii ";y:" ++
    toDecimal y.toInt ++ pipe)

def addLabel (this : DialogBuilder) (label : Bytes) (direction : Direction := .left)
    (size : SizeType := .small) : DialogBuilder :=
  this.append (ascii "\nadd_label|" ++ getSize size ++ pipe ++ label ++ pipe ++
    getDirection direction ++ ascii "|0|")

def addLabelWithIcon (this : DialogBuilder) (label : Bytes) (itemId : Int32)
    (direction : Direction := .left) (size : SizeType := .small) : DialogBuilder :=
  this.append (ascii "\nadd_label_with_icon|" ++ getSize size ++ pipe ++ label ++ pipe ++
    getDirection direction ++ pipe ++ toDecimal itemId.toInt ++ pipe)

def addTextbox (this : DialogBuilder) (label : Bytes) : DialogBuilder :=
  this.append (ascii "\nadd_textbox|" ++ label ++ pipe)

def addSmallText (this : DialogBuilder) (label : Bytes) : DialogBuilder :=
  this.append (ascii "\nadd_smalltext|" ++ label ++ pipe)

def addTextInput (this : DialogBuilder) (name label labelInside : Bytes) (maxLength : ℤ) :
    DialogBuilder :=
  this.append (ascii "\nadd_text_input|" ++ name ++ pipe ++ label ++ pipe ++ labelInside ++ pipe ++
    toDecimal maxLength ++ pipe)

def addTextInputPassword (this : DialogBuilder) (name label labelInside : Bytes)
    (maxLength : ℤ) : DialogBuilder :=
  this.append (ascii "\nadd_text_input_password|" ++ name ++ pipe ++ label ++ pipe ++
    labelInside ++ pipe ++ toDecimal maxLength ++ pipe)

-- the source appends nothing here
def addTextboxInput (this : DialogBuilder) (_name _label _textInside : Bytes)
    (_maxLength _lines : Int32) : DialogBuilder := this

def addButton (this : DialogBuilder) (name label : Bytes) (buttonFlag : Bytes := ascii "noflags") :
    DialogBuilder :=
  this.append (ascii "\nadd_button|" ++ name ++ pipe ++ label ++ pipe ++ buttonFlag ++
    ascii "|0|0|")

def endDialog (this : DialogBuilder) (name cancel ok : Bytes) : DialogBuilder :=
  this.append (ascii "\nend_dialog|" ++ name ++ pipe ++ cancel ++ pipe ++ ok ++ pipe)

/-! ### The commands of a dialog -/

/-- The text of the dialog is these commands, each on a line behind the first. -/
def Holds (this : DialogBuilder) (commands : List (List Bytes)) : Prop :=
  this.m_result = Template.render 10 124 ([[]] :: commands)

theorem holds_empty : Holds {} [] := rfl

section Commands
variable {this : DialogBuilder} {commands : List (List Bytes)}

theorem Holds.append (h : this.Holds commands) {s : Bytes} {fields : List Bytes}
    (hs : s = 10 :: Template.renderLine 124 fields) :
    (this.append s).Holds (commands ++ [fields]) := by
  have hne : ([[]] :: commands : List (List Bytes)) ≠ [] := List.cons_ne_nil _ _
  rw [Holds, ← List.cons_append, Template.render_append hne, ← hs, ← h]
  rfl

theorem Holds.setDefaultColor (h : this.Holds commands) (color : UInt8) :
    (this.setDefaultColor color).Holds
      (commands ++ [[ascii "set_default_color", ascii "`" ++ [color]]]) :=
  h.append rfl

theorem Holds.addSpacer (h : this.Holds commands) (size : SizeType) :
    (this.addSpacer size).Holds (commands ++ [[ascii "add_spacer", getSize size, []]]) :=
  h.append (by cases size <;> rfl)

theorem Holds.addLabel (h : this.Holds commands) (label : Bytes) (direction : Direction)
    (size : SizeType) :
    (this.addLabel label direction size).Holds (commands ++
      [[ascii "add_label", getSize size, label, getDirection direction, ascii "0", []]]) := by
  refine h.append ?_
  simp [Template.renderLine, ascii, pipe]

theorem Holds.addTextbox (h : this.Holds commands) (label : Bytes) :
    (this.addTextbox label).Holds (commands ++ [[ascii "add_textbox", label, []]]) := by
  refine h.append ?_
  simp [Template.renderLine, ascii, pipe]

theorem Holds.addTextInput (h : this.Holds commands) (name label labelInside : Bytes)
    (maxLength : ℤ) :
    (this.addTextInput name label labelInside maxLength).Holds (commands ++
      [[ascii "add_text_input", name, label, labelInside, toDecimal maxLength, []]]) := by
  refine h.append ?_
  simp [Template.renderLine, ascii, pipe]

theorem Holds.addTextInputPassword (h : this.Holds commands) (name label labelInside : Bytes)
    (maxLength : ℤ) :
    (this.addTextInputPassword name label labelInside maxLength).Holds (commands ++
      [[ascii "add_text_input_password", name, label, labelInside, toDecimal maxLength, []]]) := by
  refine h.append ?_
  simp [Template.renderLine, ascii, pipe]

theorem Holds.endDialog (h : this.Holds commands) (name cancel ok : Bytes) :
    (this.endDialog name cancel ok).Holds
      (commands ++ [[ascii "end_dialog", name, cancel, ok, []]]) := by
  refine h.append ?_
  simp [Template.renderLine, ascii, pipe]

end Commands

end DialogBuilder

end GrowServer
