import GrowServer.Event.HandlerEffects

/-!
# The handlers and what was sent before (Event/TextEvents, Event/Dialogs/AccountDialog.hpp)

No handler looks at the packets that were sent to the player before. So the texts of a
player can be taken one by one, each from a player to whom nothing was sent yet.
-/

namespace GrowServer
open LittleEndian

/-- The same player, with more sent before. -/
def Avatar.behind (this : Avatar) (requests : List Request) : Avatar :=
  { this with requests := requests ++ this.requests }

section Frame
variable (requests : List Request) (avatar : Avatar)

theorem send_behind (request : Request) :
    (avatar.behind requests).send request = (avatar.send request).behind requests := by
  simp only [Avatar.behind, Avatar.send, List.append_assoc]

theorem sendDialog_behind (eType : DialogType) (data : TextParse) :
    (avatar.behind requests).sendDialog eType data =
      (avatar.sendDialog eType data).map (·.behind requests) := by
  unfold Avatar.sendDialog
  cases PlayerDialog.send eType data with
  | error fault => rfl
  | ok vList => exact congrArg Except.ok (send_behind requests avatar _)

theorem applyGrowID_behind (globals : Globals) (name password : Bytes) :
    applyGrowID globals name password (avatar.behind requests) =
      (applyGrowID globals name password avatar).map (·.behind requests) := by
  unfold applyGrowID
  show (PlayerItems.addItem globals.items avatar.player.m_items itemMyFirstWorldLock 1 >>= _) = _
  cases PlayerItems.addItem globals.items avatar.player.m_items itemMyFirstWorldLock 1 with
  | error fault => rfl
  | ok first =>
    show (PlayerItems.addItem globals.items first.2 itemPickaxe 1 >>= _) =
      (PlayerItems.addItem globals.items first.2 itemPickaxe 1 >>= _).map _
    cases PlayerItems.addItem globals.items first.2 itemPickaxe 1 with
    | error fault => rfl
    | ok second =>
      refine congrArg Except.ok ?_
      simp only [CAction.playSFX, VarList.setHasGrowID, VarList.onConsoleMessage, Avatar.behind,
        Avatar.send, List.append_assoc]

theorem onDialogGrowIDApply_behind (globals : Globals) (eventParser : TextParse) :
    onDialogGrowIDApply globals eventParser (avatar.behind requests) =
      (onDialogGrowIDApply globals eventParser avatar).map (·.behind requests) := by
  unfold onDialogGrowIDApply
  show (if ¬ avatar.player.m_detail.m_tankIDName.isEmpty then _ else _) = _
  split
  · rfl
  · cases globals.playerTable with
    | none => rfl
    | some pTable =>
      simp only
      cases eventParser.get (ascii "logon") 1 with
      | error fault => rfl
      | ok name =>
        cases eventParser.get (ascii "password") 1 with
        | error fault => rfl
        | ok password =>
          cases eventParser.get (ascii "verify_password") 1 with
          | error fault => rfl
          | ok verifyPassword =>
            show (if (pTable.registerPlayer name password verifyPassword).m_result ≠ .success then
              _ else _) = Except.map _ (if (pTable.registerPlayer name password
                verifyPassword).m_result ≠ .success then _ else _)
            split
            · exact sendDialog_behind requests avatar _ _
            · exact applyGrowID_behind requests avatar globals name password

theorem route_behind (globals : Globals) (eventParser : TextParse) (key keyName : Bytes)
    (eventFunction : EventFunction) (log : Bytes → Bytes)
    (hfunction : eventFunction globals eventParser (avatar.behind requests) =
      (eventFunction globals eventParser avatar).map (·.behind requests)) :
    (do
      if ¬ (← eventParser.contain key) then return avatar.behind requests
      else
        let eventName ← eventParser.get key 1
        match (AList.insert keyName eventFunction
          (∅ : AList fun _ : Bytes => EventFunction)).lookup eventName with
        | none => return CAction.log (avatar.behind requests) .pAvatar (log eventName)
        | some eventFunction => eventFunction globals eventParser (avatar.behind requests)) =
      Except.map (·.behind requests) (do
        if ¬ (← eventParser.contain key) then return avatar
        else
          let eventName ← eventParser.get key 1
          match (AList.insert keyName eventFunction
            (∅ : AList fun _ : Bytes => EventFunction)).lookup eventName with
          | none => return CAction.log avatar .pAvatar (log eventName)
          | some eventFunction => eventFunction globals eventParser avatar) := by
  cases eventParser.contain key with
  | error fault => rfl
  | ok found =>
    cases found with
    | false => rfl
    | true =>
      cases eventParser.get key 1 with
      | error fault => rfl
      | ok eventName =>
        show (match (AList.insert keyName eventFunction
            (∅ : AList fun _ : Bytes => EventFunction)).lookup eventName with
          | none => Except.ok (CAction.log (avatar.behind requests) .pAvatar (log eventName))
          | some eventFunction => eventFunction globals eventParser (avatar.behind requests)) =
          Except.map _ (match (AList.insert keyName eventFunction
            (∅ : AList fun _ : Bytes => EventFunction)).lookup eventName with
          | none => Except.ok (CAction.log avatar .pAvatar (log eventName))
          | some eventFunction => eventFunction globals eventParser avatar)
        rw [lookup_insert_empty]
        by_cases h : eventName = keyName
        · simp only [if_pos h]
          exact hfunction
        · simp only [if_neg h]
          exact congrArg Except.ok (send_behind requests avatar _)

theorem acceptName_behind :
    acceptName (avatar.behind requests) = (acceptName avatar).map (·.behind requests) := by
  unfold acceptName
  simp only [Avatar.behind]
  by_cases hinvalid : ¬ Utils.isValidUsername avatar.player.m_detail.m_requestedName ∨
      avatar.player.m_detail.m_requestedName.length < 3 ∨
      avatar.player.m_detail.m_requestedName.length > 10
  · rw [if_pos hinvalid]
    refine (if_pos hinvalid).trans (congrArg Except.ok ?_)
    simp only [Avatar.requestDisconnect, CAction.log, Avatar.send, List.append_assoc]
  · rw [if_neg hinvalid]
    refine (if_neg hinvalid).trans ?_
    exact sendDialog_behind requests { avatar with
      player := { avatar.player with m_rawName := avatar.player.m_detail.m_requestedName } } _ _

theorem onRequestedName_behind (globals : Globals) (eventParser : TextParse) :
    onRequestedName globals eventParser (avatar.behind requests) =
      (onRequestedName globals eventParser avatar).map (·.behind requests) := by
  unfold onRequestedName
  show (if avatar.player.m_detail.isFlagOn clientFlagLoggedOn then _ else _) = _
  split
  · rfl
  · show (avatar.player.m_detail.serialize eventParser >>= _) =
      Except.map _ (avatar.player.m_detail.serialize eventParser >>= _)
    cases avatar.player.m_detail.serialize eventParser with
    | error fault => rfl
    | ok result =>
      obtain ⟨serialized, m_detail⟩ := result
      cases serialized with
      | false =>
        exact congrArg Except.ok (send_behind requests
          { avatar with player := { avatar.player with m_detail } } .disconnectLater)
      | true => exact acceptName_behind requests { avatar with player := { avatar.player with m_detail } }

/-- What was sent before a text is handled changes nothing of what the text does. -/
theorem handleText_behind (globals : Globals) (text : Bytes) :
    handleText globals text (avatar.behind requests) =
      (handleText globals text avatar).map (·.behind requests) := by
  unfold handleText
  simp only [lookup_textEvents]
  by_cases haction : eventNameOf text = ascii "action"
  · simp only [if_pos haction]
    exact route_behind requests avatar globals _ _ _ onDialogReturn unhandledAction
      (route_behind requests avatar globals _ _ _ onDialogGrowIDApply unhandledDialog
        (onDialogGrowIDApply_behind requests avatar globals _))
  simp only [if_neg haction]
  by_cases hname : eventNameOf text = ascii "requestedName"
  · simp only [if_pos hname]
    exact onRequestedName_behind requests avatar globals _
  · simp only [if_neg hname]
    exact congrArg Except.ok (send_behind requests avatar _)

end Frame

end GrowServer
