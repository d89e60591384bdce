import GrowServer.Event.Completion

/-!
# Handlers that return before they use the player (Event/TextEvents/Action.hpp, OnDialogReturn.hpp)

A handler is given the pointer to the player whether the player is still there or not. An
action that is not named, and a returned dialog that is not, are left before anything is read
from the player. Everything else uses it: the other handlers begin with it, and a log takes it
for a peer.
-/

namespace GrowServer
open LittleEndian Outcome

/-- OnDialogReturn up to its first use of `pAvatar`: whether it returns before. -/
def onDialogReturnIgnores (eventParser : TextParse) : Except Fault Bool := do
  return !(← eventParser.contain (ascii "dialog_name"))

/-- OnAction up to its first use of `pAvatar`. -/
def onActionIgnores (eventParser : TextParse) : Except Fault Bool := do
  if ¬ (← eventParser.contain (ascii "action")) then return true
  else
    let eventName ← eventParser.get (ascii "action") 1
    if eventName = ascii "dialog_return" then onDialogReturnIgnores eventParser
    else return false

/-- What the worker runs for an event, up to the first use of `pAvatar`. -/
def ignoresAvatar (eventName : Bytes) (eventParser : TextParse) : Except Fault Bool :=
  if eventName = ascii "action" then onActionIgnores eventParser else return false

/-- The text names no action, or it returns a dialog and does not name it. -/
def IgnoresAvatar (text : Bytes) : Prop :=
  eventNameOf text = ascii "action" ∧
    (TextParse.lookup (ascii "action") 1 (TextParse.textLines text) = [] ∨
      TextParse.lookup (ascii "action") 1 (TextParse.textLines text) = ascii "dialog_return" ∧
        TextParse.EveryLineKeyed (ascii "dialog_name") (TextParse.textLines text) ∧
        TextParse.lookup (ascii "dialog_name") 1 (TextParse.textLines text) = [])

section Ignores
variable (globals : Globals) (eventParser : TextParse) (avatar : Avatar)

/-- The handler first decides whether it uses the player, and fails where that fails. -/
theorem onDialogReturn_ignores :
    onDialogReturn globals eventParser avatar =
      (onDialogReturnIgnores eventParser >>= fun ignored =>
        if ignored then .ok avatar else onDialogReturn globals eventParser avatar) := by
  unfold onDialogReturnIgnores
  cases hcontain : eventParser.contain (ascii "dialog_name") with
  | error fault =>
    rw [onDialogReturn, hcontain]
    rfl
  | ok found =>
    cases found with
    | false =>
      rw [onDialogReturn, hcontain]
      rfl
    | true => rfl

theorem onAction_ignores :
    onAction globals eventParser avatar =
      (onActionIgnores eventParser >>= fun ignored =>
        if ignored then .ok avatar else onAction globals eventParser avatar) := by
  unfold onActionIgnores
  cases hcontain : eventParser.contain (ascii "action") with
  | error fault =>
    rw [onAction, hcontain]
    rfl
  | ok found =>
    cases found with
    | false =>
      rw [onAction, hcontain]
      rfl
    | true =>
      cases hget : eventParser.get (ascii "action") 1 with
      | error fault =>
        have hfault : onAction globals eventParser avatar = .error fault := by
          rw [onAction, hcontain]
          show (eventParser.get (ascii "action") 1 >>= _) = _
          rw [hget]
          rfl
        rw [hfault]
        rfl
      | ok eventName =>
        by_cases hreturn : eventName = ascii "dialog_return"
        · have haction : onAction globals eventParser avatar =
              onDialogReturn globals eventParser avatar := by
            subst hreturn
            rw [onAction, hcontain, actionEvents]
            show (eventParser.get (ascii "action") 1 >>= _) = _
            rw [hget]
            rfl
          show _ = ((if eventName = ascii "dialog_return" then onDialogReturnIgnores eventParser
            else .ok false) >>= _)
          rw [if_pos hreturn, haction]
          exact onDialogReturn_ignores globals eventParser avatar
        · show _ = ((if eventName = ascii "dialog_return" then onDialogReturnIgnores eventParser
            else .ok false) >>= _)
          rw [if_neg hreturn]
          rfl

theorem handleText_ignores (text : Bytes) :
    handleText globals text avatar =
      (ignoresAvatar (eventNameOf text) (TextParse.parse text) >>= fun ignored =>
        if ignored then .ok avatar else handleText globals text avatar) := by
  by_cases haction : eventNameOf text = ascii "action"
  · have htext : handleText globals text avatar =
        onAction globals (TextParse.parse text) avatar := by
      unfold handleText
      simp only [lookup_textEvents, if_pos haction]
    rw [ignoresAvatar, if_pos haction, htext]
    exact onAction_ignores globals (TextParse.parse text) avatar
  · rw [ignoresAvatar, if_neg haction]
    rfl

/-- So a text that is ignored leaves every player as it is. -/
theorem handleText_of_ignoresAvatar {text : Bytes}
    (h : ignoresAvatar (eventNameOf text) (TextParse.parse text) = .ok true) :
    handleText globals text avatar = .ok avatar := by
  rw [handleText_ignores globals avatar text, h]
  rfl

end Ignores

theorem onDialogReturnIgnores_iff (eventParser : TextParse) :
    onDialogReturnIgnores eventParser = .ok true ↔
      TextParse.EveryLineKeyed (ascii "dialog_name") eventParser.m_data ∧
        TextParse.lookup (ascii "dialog_name") 1 eventParser.m_data = [] := by
  have hfound := eventParser.contain_eq_ok_iff (ascii "dialog_name")
  unfold onDialogReturnIgnores
  rw [bind_eq_ok]
  constructor
  · intro h
    obtain ⟨found, hcontain, hnot⟩ := h
    obtain ⟨hkeyed, hlookup⟩ := (hfound found).mp hcontain
    have htrue : (!found) = true := Except.ok.inj hnot
    have hfalse : found = false := by simpa using htrue
    refine ⟨hkeyed, ?_⟩
    rw [hfalse] at hlookup
    simpa using hlookup
  · intro h
    obtain ⟨hkeyed, hlookup⟩ := h
    exact ⟨false, (hfound false).mpr ⟨hkeyed, by simp [hlookup]⟩, rfl⟩

theorem ignoresAvatar_iff (text : Bytes) :
    ignoresAvatar (eventNameOf text) (TextParse.parse text) = .ok true ↔ IgnoresAvatar text := by
  have hlines := TextParse.parse_m_data text
  unfold ignoresAvatar IgnoresAvatar
  by_cases haction : eventNameOf text = ascii "action"
  swap
  · rw [if_neg haction]
    refine iff_of_false ?_ fun h => haction h.1
    intro h
    exact absurd (Except.ok.inj h) Bool.false_ne_true
  have hkeyed := everyLineKeyed_eventNameOf haction (by decide) (by decide)
  have hdialog := onDialogReturnIgnores_iff (TextParse.parse text)
  rw [← hlines] at hkeyed ⊢
  rw [if_pos haction, and_iff_right haction, onActionIgnores,
    ((TextParse.parse text).contain_eq_ok_iff (ascii "action") _).mpr ⟨hkeyed, rfl⟩]
  by_cases hempty : TextParse.lookup (ascii "action") 1 (TextParse.parse text).m_data = []
  · rw [hempty]
    exact iff_of_true rfl (Or.inl rfl)
  have hfound : (TextParse.lookup (ascii "action") 1 (TextParse.parse text).m_data != []) = true := by
    simpa using hempty
  rw [or_iff_right hempty, hfound, ← hdialog,
    ((TextParse.parse text).get_eq_ok_iff (ascii "action") 1 _).mpr ⟨hkeyed, rfl⟩]
  show (if TextParse.lookup (ascii "action") 1 (TextParse.parse text).m_data =
      ascii "dialog_return" then onDialogReturnIgnores (TextParse.parse text)
    else Except.ok false) = .ok true ↔ _
  by_cases hreturn : TextParse.lookup (ascii "action") 1 (TextParse.parse text).m_data =
      ascii "dialog_return"
  · rw [if_pos hreturn, and_iff_right hreturn]
  · rw [if_neg hreturn]
    refine iff_of_false ?_ fun h => hreturn h.1
    intro h
    exact absurd (Except.ok.inj h) Bool.false_ne_true

/-- A text without a handler is logged, to the player for a peer. -/
theorem ignoresAvatar_of_unregistered {eventName : Bytes} (h : textEvents.lookup eventName = none)
    (eventParser : TextParse) : ignoresAvatar eventName eventParser = .ok false := by
  rw [ignoresAvatar, if_neg]
  · rfl
  · rintro rfl
    cases h

end GrowServer
