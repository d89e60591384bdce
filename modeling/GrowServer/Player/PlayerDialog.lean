import GrowServer.Packet.VariantList
import GrowServer.Utils.DialogBuilder
import GrowServer.Utils.TextParse

/-!
# PlayerDialog (Player/PlayerDialog/PlayerDialog.cpp)

The dialogs the server shows a player, filled in from the entries of a text.
-/

namespace GrowServer
open LittleEndian Outcome DialogBuilder

inductive DialogType where
  | registration
  deriving DecidableEq, Repr

namespace PlayerDialog

def registration (data : TextParse) : Except Fault DialogBuilder := do
  let db := (({} : DialogBuilder).setDefaultColor 111 |>.addLabel (ascii "`wGet a GrowID!``") .left
    .big).addSpacer
  let db ←
    if ← data.contain (ascii "extra_message") then
      pure (db.addTextbox (← data.get (ascii "extra_message"))).addSpacer
    else pure db
  let logon ← data.get (ascii "logon")
  let password ← data.get (ascii "password")
  let verifyPassword ← data.get (ascii "verify_password")
  return db
    |>.addTextbox (ascii "By choosing a `wGrowID``, you can use a name and password to logon " ++
      ascii "from any device. Your`` name`` will be shown to other players!")
    |>.addTextInput (ascii "logon") (ascii "Name ") logon 18
    |>.addSpacer
    |>.addTextbox (ascii "Your `wpassword`` must contain`` 8 to 18 characters, 1 letter, " ++
      ascii "1 number`` and`` 1 special character: @#!$^&*.,``")
    |>.addTextInputPassword (ascii "password") (ascii "Password ") password 18
    |>.addTextInputPassword (ascii "verify_password") (ascii "Password Verify ") verifyPassword 18
    |>.addSpacer
    |>.endDialog (ascii "growid_apply") (ascii "Cancel") (ascii "`wGet a GrowID``")

def delayMS (data : TextParse) : Except Fault Int32 := do
  if (← data.get (ascii "delayMS")) = [] then return 0
  else
    let v ← StdNumber.stoi (← data.get (ascii "delayMS"))
    return Int32.ofInt v

def sendData (delayMS : Int32) (pData : DialogBuilder) : VariantList :=
  (VariantList.create (ascii "OnDialogRequest") delayMS).insert (.string pData.m_result)

/-- PlayerDialog.cpp:20-45: the list that is sent. -/
def send (eType : DialogType) (data : TextParse) : Except Fault VariantList := do
  let db ←
    match eType with
    | .registration => registration data
  let delayMS ← delayMS data
  return sendData delayMS db

/-- A text whose entries are all found, and that sets no delay. -/
structure Fillable (data : TextParse) : Prop where
  get_ok : ∀ key, data.get key = .ok (TextParse.lookup key 1 data.m_data)
  no_delay : TextParse.lookup (ascii "delayMS") 1 data.m_data = []

theorem Fillable.contain_ok {data : TextParse} (h : Fillable data) (key : Bytes) :
    data.contain key = .ok (TextParse.lookup key 1 data.m_data != []) := by
  rw [TextParse.contain, h.get_ok]
  rfl

theorem Fillable.delayMS_ok {data : TextParse} (h : Fillable data) : delayMS data = .ok 0 := by
  rw [delayMS, h.get_ok, h.no_delay]
  rfl

theorem send_ok {data : TextParse} (eType : DialogType) (h : Fillable data) :
    ∃ vList, send eType data = .ok vList := by
  cases eType
  obtain ⟨db, hdb⟩ : ∃ db, registration data = .ok db := by
    unfold registration
    simp only [h.contain_ok, h.get_ok]
    cases TextParse.lookup (ascii "extra_message") 1 data.m_data != [] with
    | false => exact ⟨_, rfl⟩
    | true => exact ⟨_, rfl⟩
  refine ⟨sendData 0 db, ?_⟩
  unfold send
  simp only [hdb, h.delayMS_ok]
  rfl

theorem fillable_empty : Fillable {} where
  get_ok := fun _ => rfl
  no_delay := rfl

theorem fillable_ofPairs (data : List (Bytes × Bytes))
    (hkeys : ∀ it ∈ data, it.1 ≠ [] ∧ (124 : UInt8) ∉ it.1)
    (hdelay : ∀ it ∈ data, it.1 ≠ ascii "delayMS") : Fillable (TextParse.ofPairs data) where
  get_ok := fun key => TextParse.get_ofPairs data key 1 hkeys
  no_delay := TextParse.lookup_ofPairs_of_not_mem data _ 1 hkeys hdelay

/-! ### The registration dialog as a template -/

inductive Hole where
  | extraMessage
  | logon
  | password
  | verifyPassword
  deriving DecidableEq, Repr

def Hole.key : Hole → Bytes
  | extraMessage => ascii "extra_message"
  | logon => ascii "logon"
  | password => ascii "password"
  | verifyPassword => ascii "verify_password"

/-- The lines of the dialog with a message. The first is empty, as every command is
written behind a newline. -/
def registrationTemplate : List (List (Template.Field UInt8 Hole)) := [
  [.fixed []],
  [.fixed (ascii "set_default_color"), .fixed (ascii "`" ++ [111])],
  [.fixed (ascii "add_label"), .fixed (getSize .big), .fixed (ascii "`wGet a GrowID!``"),
    .fixed (getDirection .left), .fixed (ascii "0"), .fixed []],
  [.fixed (ascii "add_spacer"), .fixed (getSize .small), .fixed []],
  [.fixed (ascii "add_textbox"), .hole .extraMessage, .fixed []],
  [.fixed (ascii "add_spacer"), .fixed (getSize .small), .fixed []],
  [.fixed (ascii "add_textbox"),
    .fixed (ascii "By choosing a `wGrowID``, you can use a name and password to logon " ++
      ascii "from any device. Your`` name`` will be shown to other players!"), .fixed []],
  [.fixed (ascii "add_text_input"), .fixed (ascii "logon"), .fixed (ascii "Name "), .hole .logon,
    .fixed (toDecimal 18), .fixed []],
  [.fixed (ascii "add_spacer"), .fixed (getSize .small), .fixed []],
  [.fixed (ascii "add_textbox"),
    .fixed (ascii "Your `wpassword`` must contain`` 8 to 18 characters, 1 letter, " ++
      ascii "1 number`` and`` 1 special character: @#!$^&*.,``"), .fixed []],
  [.fixed (ascii "add_text_input_password"), .fixed (ascii "password"),
    .fixed (ascii "Password "), .hole .password, .fixed (toDecimal 18), .fixed []],
  [.fixed (ascii "add_text_input_password"), .fixed (ascii "verify_password"),
    .fixed (ascii "Password Verify "), .hole .verifyPassword, .fixed (toDecimal 18), .fixed []],
  [.fixed (ascii "add_spacer"), .fixed (getSize .small), .fixed []],
  [.fixed (ascii "end_dialog"), .fixed (ascii "growid_apply"), .fixed (ascii "Cancel"),
    .fixed (ascii "`wGet a GrowID``"), .fixed []]]

def registrationText (values : Hole → Bytes) : Bytes :=
  Template.render 10 124 (Template.fill values registrationTemplate)

/-- With a message, the dialog is the template filled in from the entries. -/
theorem send_registration {data : TextParse} (h : Fillable data)
    (hmessage : TextParse.lookup (ascii "extra_message") 1 data.m_data ≠ []) :
    send .registration data =
      .ok (sendData 0 ⟨registrationText fun hole => TextParse.lookup hole.key 1 data.m_data⟩) := by
  have hcontain : data.contain (ascii "extra_message") = .ok true := by
    rw [h.contain_ok]
    simpa using hmessage
  have hdb : ∃ db, registration data = .ok db ∧
      db.m_result = registrationText fun hole => TextParse.lookup hole.key 1 data.m_data := by
    unfold registration
    simp only [hcontain, h.get_ok]
    refine ⟨_, rfl, ?_⟩
    exact holds_empty.setDefaultColor _ |>.addLabel _ _ _ |>.addSpacer _ |>.addTextbox _
      |>.addSpacer _ |>.addTextbox _ |>.addTextInput _ _ _ _ |>.addSpacer _ |>.addTextbox _
      |>.addTextInputPassword _ _ _ _ |>.addTextInputPassword _ _ _ _ |>.addSpacer _
      |>.endDialog _ _ _
  obtain ⟨db, hdb, hresult⟩ := hdb
  unfold send
  simp only [hdb, h.delayMS_ok]
  rw [← hresult]
  rfl

/-- A text that is filled in without separators is read back as the template filled in. -/
theorem parse_registrationText {values : Hole → Bytes}
    (h : ∀ hole, Template.Clean 10 124 (values hole)) :
    Template.parse 10 124 (registrationText values) =
      Template.fill values registrationTemplate := by
  refine Template.parse_render (by decide) (Template.readable_fill (List.cons_ne_nil _ _) ?_ h)
  decide +kernel

end PlayerDialog

end GrowServer
