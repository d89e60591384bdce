import GrowServer.Event.HandlerEffects

/-!
# The registration dialog as an answer (Event/Dialogs/AccountDialog.hpp, PlayerDialog.cpp)

A registration that is refused is answered with the dialog it came from, filled in
with what was submitted. The values go from the received text into a second one,
from there into the lines of the dialog, and are escaped nowhere; what they are cut
out of leaves no separator in them.
-/

namespace GrowServer
open LittleEndian Outcome PlayerDialog

structure IsGrowIDApply (text : Bytes) : Prop where
  event : eventNameOf text = ascii "action"
  action : TextParse.lookup (ascii "action") 1 (TextParse.textLines text) = ascii "dialog_return"
  dialog : TextParse.lookup (ascii "dialog_name") 1 (TextParse.textLines text) =
    ascii "growid_apply"

/-- The text is handled to the end, and the player is sent the dialog. -/
structure AnsweredWith (globals : Globals) (avatar : Avatar) (text dialog : Bytes) : Prop where
  routed : IsGrowIDApply text
  answered : ∃ after delayMS, handleText globals text avatar = .ok after ∧
    after.requests = avatar.requests ++ [.variantList .m_pPeer (sendData delayMS ⟨dialog⟩)]

def Submission.values (this : Submission) (message : Bytes) : Hole → Bytes
  | .extraMessage => message
  | .logon => this.name
  | .password => this.password
  | .verifyPassword => this.verifyPassword

theorem clean_submission (text : Bytes) {message : Bytes} (h : Template.Clean 10 124 message)
    (hole : Hole) : Template.Clean 10 124 ((submissionOf text).values message hole) := by
  cases hole with
  | extraMessage => exact h
  | logon => exact TextParse.clean_lookup text _ 1
  | password => exact TextParse.clean_lookup text _ 1
  | verifyPassword => exact TextParse.clean_lookup text _ 1

theorem lookup_registrationEntries {submission : Submission} {message : Bytes}
    (h : ∀ hole, Template.Clean 10 124 (submission.values message hole)) (hole : Hole) :
    TextParse.lookup hole.key 1 (TextParse.ofPairs (registrationEntries submission.name
      submission.password submission.verifyPassword message)).m_data =
        submission.values message hole := by
  have hkeyed : ∀ it ∈ registrationEntries submission.name submission.password
      submission.verifyPassword message,
        it.1 ≠ [] ∧ (124 : UInt8) ∉ it.1 ∧ (124 : UInt8) ∉ it.2 := by
    intro it hit
    obtain ⟨hne, hbar, -⟩ := registrationEntries_keys hit
    refine ⟨hne, hbar, ?_⟩
    have hentries : it ∈ [Hole.logon, .password, .verifyPassword, .extraMessage].map fun hole =>
      (hole.key, submission.values message hole) := hit
    obtain ⟨hole, -, rfl⟩ := List.mem_map.mp hentries
    exact (h hole).bar_not_mem
  refine TextParse.lookup_ofPairs hkeyed ?_
  cases hole with
  | extraMessage => rfl
  | logon => rfl
  | password => rfl
  | verifyPassword => rfl

section Answer
variable {globals : Globals} {avatar after : Avatar} {text dialog : Bytes}

theorem onDialogGrowIDApply_of_routed (hrouted : IsGrowIDApply text)
    (h : handleText globals text avatar = .ok after) :
    onDialogGrowIDApply globals (TextParse.parse text) avatar = .ok after := by
  unfold handleText at h
  simp only [lookup_textEvents, if_pos hrouted.event] at h
  rcases onAction_routes h with ⟨hother, -⟩ | ⟨-, h⟩
  · rw [TextParse.parse_m_data] at hother
    exact absurd hrouted.action hother
  rcases onDialogReturn_routes h with ⟨hother, -⟩ | ⟨-, h⟩
  · rw [TextParse.parse_m_data] at hother
    exact absurd hrouted.dialog hother
  exact h

theorem sendData_inj {delayMS delayMS' : Int32} {db db' : DialogBuilder}
    (h : sendData delayMS db = sendData delayMS' db') : db.m_result = db'.m_result := by
  simpa [sendData, VariantList.create, VariantList.insert] using congrArg VariantList.m_objects h

theorem sendDialog_registration {submission : Submission} {message : Bytes} (hne : message ≠ [])
    (hclean : ∀ hole, Template.Clean 10 124 (submission.values message hole))
    (h : avatar.sendDialog .registration (TextParse.ofPairs (registrationEntries submission.name
      submission.password submission.verifyPassword message)) = .ok after) :
    after.requests = avatar.requests ++
      [.variantList .m_pPeer (sendData 0 ⟨registrationText (submission.values message)⟩)] := by
  have hvalues := lookup_registrationEntries hclean
  have hmessage := hvalues .extraMessage
  obtain ⟨vList, hvList, rfl⟩ := sendDialog_ok h
  have hdialog := send_registration (registrationEntries_fillable submission.name
    submission.password submission.verifyPassword message) (fun hnil => hne (hmessage.symm.trans hnil))
  rw [funext hvalues] at hdialog
  obtain rfl := Except.ok.inj (hvList.symm.trans hdialog)
  rfl

/-- The dialog is the template, filled in with what was submitted and a message. -/
theorem dialog_of_answeredWith (h : AnsweredWith globals avatar text dialog) :
    ∃ message, Template.Clean 10 124 message ∧
      dialog = registrationText ((submissionOf text).values message) := by
  obtain ⟨after, delayMS, hhandled, hrequests⟩ := h.answered
  have happly := onDialogGrowIDApply_of_routed h.routed hhandled
  rcases onDialogGrowIDApply_cases happly with
    ⟨-, rfl⟩ | ⟨pTable, hrefused, hsent⟩ | ⟨hregisters, hgranted⟩
  · simp at hrequests
  · rw [TextParse.parse_m_data] at hrefused hsent
    rcases pTable.registerPlayer_cases _ _ _ with ⟨-, hsuccess⟩ | ⟨-, -, hne, hclean⟩
    · exact absurd hsuccess hrefused.result
    refine ⟨_, hclean, ?_⟩
    have hsame := sendDialog_registration hne (clean_submission text hclean) hsent
    have hlast := List.append_cancel_left (hrequests.symm.trans hsame)
    exact sendData_inj (Request.variantList.inj (List.cons.inj hlast).1).2
  · -- a registration that is granted sends a sound and three other packets
    obtain ⟨hname, hpassword⟩ := fits_of_registers hregisters
    have hmany := (applyGrowID_ok hgranted hname hpassword).2
    rw [hrequests, List.length_append, List.length_singleton] at hmany
    omega

end Answer

/-- Line and field of the message, the name, the password and the repeated password. Both
are counted from 0, line 0 being the empty one before the first command. -/
def openFields : List (ℕ × ℕ) := [(4, 1), (7, 3), (10, 3), (11, 3)]

theorem mem_openFields {i j : ℕ} (h : Template.IsHole registrationTemplate i j) :
    (i, j) ∈ openFields := by
  have hwidth : ∀ line ∈ registrationTemplate, line.length ≤ 6 := by decide
  have hall : ∀ i < 14, ∀ j < 6,
      Template.IsHole registrationTemplate i j ↔ (i, j) ∈ openFields := by decide
  obtain ⟨hi, hj⟩ := h.bounds hwidth
  exact (hall i hi j hj).mp h

/-- The message stands in a textbox, and what was submitted in the value fields of the
three inputs. -/
structure Shows (lines : List (List Bytes)) (submission : Submission) : Prop where
  message : ∃ label, lines[4]? = some [ascii "add_textbox", label, []]
  logon : lines[7]? = some [ascii "add_text_input", ascii "logon", ascii "Name ",
    submission.name, toDecimal 18, []]
  password : lines[10]? = some [ascii "add_text_input_password", ascii "password",
    ascii "Password ", submission.password, toDecimal 18, []]
  verifyPassword : lines[11]? = some [ascii "add_text_input_password", ascii "verify_password",
    ascii "Password Verify ", submission.verifyPassword, toDecimal 18, []]

theorem shows_fill (submission : Submission) (message : Bytes) :
    Shows (Template.fill (submission.values message) registrationTemplate) submission :=
  ⟨⟨message, rfl⟩, rfl, rfl, rfl⟩

/-- Whatever two players submit, and whatever the database answers, two dialogs they are
answered with have the same commands on the same lines with the same fields, but for the
message and the values, which are the submitted ones. -/
theorem answers_sameCommands {globals globals' : Globals} {avatar avatar' : Avatar}
    {text text' dialog dialog' : Bytes} (h : AnsweredWith globals avatar text dialog)
    (h' : AnsweredWith globals' avatar' text' dialog') :
    Template.SameUpTo 10 124 (fun line field => (line, field) ∈ openFields) dialog dialog' ∧
      Shows (Template.parse 10 124 dialog) (submissionOf text) ∧
      Shows (Template.parse 10 124 dialog') (submissionOf text') := by
  obtain ⟨message, hclean, rfl⟩ := dialog_of_answeredWith h
  obtain ⟨message', hclean', rfl⟩ := dialog_of_answeredWith h'
  have hparse := parse_registrationText (clean_submission text hclean)
  have hparse' := parse_registrationText (clean_submission text' hclean')
  refine ⟨(Template.sameUpTo_fill hparse hparse').mono fun i j => mem_openFields, ?_, ?_⟩
  · rw [hparse]
    exact shows_fill _ message
  · rw [hparse']
    exact shows_fill _ message'

def dialogReturn (logon password verifyPassword : String) : Bytes :=
  ascii "action|dialog_return\ndialog_name|growid_apply\nlogon|" ++ ascii logon ++
    ascii "\npassword|" ++ ascii password ++ ascii "\nverify_password|" ++ ascii verifyPassword

set_option maxRecDepth 4096 in
theorem answers_sameCommands_refused :
    ∃ dialog dialog',
      (AnsweredWith ⟨{}, some ⟨fun _ => true, true⟩⟩ newcomer
          (dialogReturn "bob" "12345678" "12345678") dialog ∧
        AnsweredWith ⟨{}, some ⟨fun _ => true, true⟩⟩ newcomer (dialogReturn "b|b" "" "x\r") dialog') ∧
      Template.SameUpTo 10 124 (fun line field => (line, field) ∈ openFields) dialog dialog' ∧
      Shows (Template.parse 10 124 dialog) (submissionOf (dialogReturn "bob" "12345678" "12345678")) ∧
      Shows (Template.parse 10 124 dialog') (submissionOf (dialogReturn "b|b" "" "x\r")) := by
  have h : ∃ dialog, AnsweredWith ⟨{}, some ⟨fun _ => true, true⟩⟩ newcomer
      (dialogReturn "bob" "12345678" "12345678") dialog :=
    ⟨_, ⟨by decide, by decide, by decide⟩, _, _, rfl, rfl⟩
  have h' : ∃ dialog, AnsweredWith ⟨{}, some ⟨fun _ => true, true⟩⟩ newcomer
      (dialogReturn "b|b" "" "x\r") dialog :=
    ⟨_, ⟨by decide, by decide, by decide⟩, _, _, rfl, rfl⟩
  obtain ⟨dialog, h⟩ := h
  obtain ⟨dialog', h'⟩ := h'
  exact ⟨dialog, dialog', ⟨h, h'⟩, answers_sameCommands h h'⟩

end GrowServer
