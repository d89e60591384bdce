import GrowServer.Event.TextEvents

/-!
# What handling a text does to a player (Event/TextEvents, Event/Dialogs/AccountDialog.hpp)

The handlers of the login message and of the returned registration dialog both write
what a player is known as. A text that is handled to the end leaves it as it is,
replaces the raw name by the requested one, or registers an account.
-/

namespace GrowServer
open LittleEndian Outcome
open StdNumber (toLower)

/-- What a player is known as. -/
structure Identity where
  tankIDName : Bytes
  tankIDPass : Bytes
  rawName : Bytes
  deriving DecidableEq, Repr

def Player.identity (this : Player) : Identity :=
  ⟨this.m_detail.m_tankIDName, this.m_detail.m_tankIDPass, this.m_rawName⟩

structure Submission where
  name : Bytes
  password : Bytes
  verifyPassword : Bytes
  deriving DecidableEq, Repr

namespace Submission

def ofLines (lines : List Bytes) : Submission where
  name := TextParse.lookup (ascii "logon") 1 lines
  password := TextParse.lookup (ascii "password") 1 lines
  verifyPassword := TextParse.lookup (ascii "verify_password") 1 lines

def registerPlayer (this : Submission) (pTable : PlayerTable) : PlayerRegistration :=
  pTable.registerPlayer this.name this.password this.verifyPassword

def identity (this : Submission) : Identity := ⟨this.name.map toLower, this.password, this.name⟩

end Submission

structure Refused (globals : Globals) (player : Player) (lines : List Bytes)
    (pTable : PlayerTable) : Prop where
  unnamed : player.m_detail.m_tankIDName = []
  table : globals.playerTable = some pTable
  result : ((Submission.ofLines lines).registerPlayer pTable).m_result ≠ .success

section Handlers
variable {globals : Globals} {eventParser : TextParse} {avatar after : Avatar}

theorem registers_iff {player : Player} {lines : List Bytes} {pTable : PlayerTable}
    (hname : player.m_detail.m_tankIDName = []) (htable : globals.playerTable = some pTable) :
    Registers globals player lines ↔
      ((Submission.ofLines lines).registerPlayer pTable).m_result = .success := by
  rw [Submission.registerPlayer, pTable.registerPlayer_success_iff]
  constructor
  · intro hregisters
    obtain ⟨-, pTable', hsome, h⟩ := hregisters
    rwa [Option.some.inj (htable.symm.trans hsome)]
  · intro h
    exact ⟨hname, pTable, htable, h⟩

theorem sendDialog_ok {eType : DialogType} {data : TextParse}
    (h : avatar.sendDialog eType data = .ok after) :
    ∃ vList, PlayerDialog.send eType data = .ok vList ∧
      after = avatar.send (.variantList .m_pPeer vList) := by
  obtain ⟨vList, hvList, hafter⟩ := bind_eq_ok.mp h
  exact ⟨vList, hvList, (Except.ok.inj hafter).symm⟩

/-- The setters accept what passed the checks, so all of it is stored. -/
theorem applyGrowID_ok {name password : Bytes}
    (h : applyGrowID globals name password avatar = .ok after)
    (hname : TankInfo.fits 24 (name.map toLower)) (hpassword : TankInfo.fits 24 password) :
    after.player.identity = ⟨name.map toLower, password, name⟩ ∧
      after.requests.length = avatar.requests.length + 4 := by
  have hset (det : TankInfo) :
      ((det.setTankIDName (name.map toLower)).2.setTankIDPass password).2 =
        { det with m_tankIDName := name.map toLower, m_tankIDPass := password } := by
    simp only [TankInfo.setTankIDName, TankInfo.setTankIDPass, TankInfo.setBounded, if_pos hname,
      if_pos hpassword]
  obtain ⟨first, -, h⟩ := bind_eq_ok.mp h
  obtain ⟨second, -, h⟩ := bind_eq_ok.mp h
  obtain rfl := Except.ok.inj h
  rw [hset]
  refine ⟨rfl, ?_⟩
  simp only [VarList.onConsoleMessage, VarList.setHasGrowID, CAction.playSFX, Avatar.send,
    List.length_append, List.length_singleton]

theorem fits_of_registers {player : Player} {lines : List Bytes}
    (h : Registers globals player lines) :
    TankInfo.fits 24 ((Submission.ofLines lines).name.map toLower) ∧
      TankInfo.fits 24 (Submission.ofLines lines).password := by
  obtain ⟨-, pTable, -, hregistrable⟩ := h
  have hname : 3 ≤ (Submission.ofLines lines).name.length ∧
      (Submission.ofLines lines).name.length ≤ 18 := hregistrable.name_length
  have hpassword : 8 ≤ (Submission.ofLines lines).password.length ∧
      (Submission.ofLines lines).password.length ≤ 24 := hregistrable.password_length
  simp only [TankInfo.fits, List.length_map, decide_eq_true_eq]
  omega

theorem onDialogGrowIDApply_cases (h : onDialogGrowIDApply globals eventParser avatar = .ok after) :
    (¬ Registers globals avatar.player eventParser.m_data ∧ after = avatar) ∨
      (∃ pTable, Refused globals avatar.player eventParser.m_data pTable ∧
        avatar.sendDialog .registration (TextParse.ofPairs (registrationEntries
          (Submission.ofLines eventParser.m_data).name
          (Submission.ofLines eventParser.m_data).password
          (Submission.ofLines eventParser.m_data).verifyPassword
          ((Submission.ofLines eventParser.m_data).registerPlayer pTable).m_data)) = .ok after) ∨
      (Registers globals avatar.player eventParser.m_data ∧
        applyGrowID globals (Submission.ofLines eventParser.m_data).name
          (Submission.ofLines eventParser.m_data).password avatar = .ok after) := by
  unfold onDialogGrowIDApply at h
  by_cases hname : avatar.player.m_detail.m_tankIDName = []
  swap
  · rw [if_pos (by rwa [List.isEmpty_iff])] at h
    exact Or.inl ⟨fun hregisters => hname hregisters.1, (Except.ok.inj h).symm⟩
  rw [if_neg (by simpa using hname)] at h
  cases htable : globals.playerTable with
  | none =>
    rw [htable] at h
    refine Or.inl ⟨?_, (Except.ok.inj h).symm⟩
    intro hregisters
    obtain ⟨-, pTable, hsome, -⟩ := hregisters
    rw [htable] at hsome
    cases hsome
  | some pTable =>
    rw [htable] at h
    obtain ⟨name, hlogon, h⟩ := bind_eq_ok.mp h
    obtain ⟨password, hpassword, h⟩ := bind_eq_ok.mp h
    obtain ⟨verifyPassword, hverify, h⟩ := bind_eq_ok.mp h
    obtain ⟨-, rfl⟩ := (eventParser.get_eq_ok_iff _ 1 name).mp hlogon
    obtain ⟨-, rfl⟩ := (eventParser.get_eq_ok_iff _ 1 password).mp hpassword
    obtain ⟨-, rfl⟩ := (eventParser.get_eq_ok_iff _ 1 verifyPassword).mp hverify
    by_cases hresult :
        ((Submission.ofLines eventParser.m_data).registerPlayer pTable).m_result = .success
    · right; right
      exact ⟨(registers_iff hname htable).mpr hresult, (if_neg (not_not.mpr hresult)).symm.trans h⟩
    · right; left
      exact ⟨pTable, ⟨hname, htable, hresult⟩, (if_pos hresult).symm.trans h⟩

/-- A registration that is handled to the end leaves the player as it is, or makes it
known under what was submitted. -/
theorem onDialogGrowIDApply_player
    (h : onDialogGrowIDApply globals eventParser avatar = .ok after) :
    (¬ Registers globals avatar.player eventParser.m_data ∧ after.player = avatar.player) ∨
      (Registers globals avatar.player eventParser.m_data ∧
        after.player.identity = (Submission.ofLines eventParser.m_data).identity) := by
  rcases onDialogGrowIDApply_cases h with ⟨hnot, rfl⟩ | ⟨pTable, hrefused, hsent⟩ | ⟨hregisters, happly⟩
  · exact Or.inl ⟨hnot, rfl⟩
  · obtain ⟨vList, -, rfl⟩ := sendDialog_ok hsent
    left
    refine ⟨?_, rfl⟩
    rw [registers_iff hrefused.unnamed hrefused.table]
    exact hrefused.result
  · right
    obtain ⟨hname, hpassword⟩ := fits_of_registers hregisters
    exact ⟨hregisters, (applyGrowID_ok happly hname hpassword).1⟩

/-- One layer of actions: the entry names the event that is run, any other is logged,
and a text without the entry does nothing. -/
theorem route_cases (key keyName : Bytes) (hkey : keyName ≠ []) (eventFunction : EventFunction)
    (log : Bytes → Avatar)
    (h : (do
      if ¬ (← eventParser.contain key) then return avatar
      else
        let eventName ← eventParser.get key 1
        match (AList.insert keyName eventFunction
          (∅ : AList fun _ : Bytes => EventFunction)).lookup eventName with
        | none => return log eventName
        | some eventFunction => eventFunction globals eventParser avatar) = .ok after) :
    (TextParse.lookup key 1 eventParser.m_data ≠ keyName ∧
        (after = avatar ∨ after = log (TextParse.lookup key 1 eventParser.m_data))) ∨
      (TextParse.lookup key 1 eventParser.m_data = keyName ∧
        eventFunction globals eventParser avatar = .ok after) := by
  obtain ⟨found, hfound, h⟩ := bind_eq_ok.mp h
  obtain ⟨-, rfl⟩ := (eventParser.contain_eq_ok_iff key found).mp hfound
  by_cases hempty : TextParse.lookup key 1 eventParser.m_data = []
  · rw [if_pos (by simp [hempty])] at h
    exact Or.inl ⟨fun heq => hkey (heq.symm.trans hempty), Or.inl (Except.ok.inj h).symm⟩
  · rw [if_neg (by simpa using hempty)] at h
    obtain ⟨eventName, hget, h⟩ := bind_eq_ok.mp h
    obtain ⟨-, rfl⟩ := (eventParser.get_eq_ok_iff key 1 eventName).mp hget
    rw [lookup_insert_empty] at h
    by_cases heq : TextParse.lookup key 1 eventParser.m_data = keyName
    · simp only [if_pos heq] at h
      exact Or.inr ⟨heq, h⟩
    · simp only [if_neg heq] at h
      exact Or.inl ⟨heq, Or.inr (Except.ok.inj h).symm⟩

def unhandledDialog (eventName : Bytes) : Bytes :=
  ascii "`oUnhandled OnAction::OnDialogReturn, eventName(`w" ++ eventName ++ ascii "``)``"

def unhandledAction (eventName : Bytes) : Bytes :=
  ascii "`oUnhandled TextEvents::OnAction, eventName(`w" ++ eventName ++ ascii "``)``"

theorem onDialogReturn_routes (h : onDialogReturn globals eventParser avatar = .ok after) :
    (TextParse.lookup (ascii "dialog_name") 1 eventParser.m_data ≠ ascii "growid_apply" ∧
        (after = avatar ∨ after = CAction.log avatar .pAvatar
          (unhandledDialog (TextParse.lookup (ascii "dialog_name") 1 eventParser.m_data)))) ∨
      (TextParse.lookup (ascii "dialog_name") 1 eventParser.m_data = ascii "growid_apply" ∧
        onDialogGrowIDApply globals eventParser avatar = .ok after) :=
  route_cases _ _ (by decide) onDialogGrowIDApply _ h

theorem onAction_routes (h : onAction globals eventParser avatar = .ok after) :
    (TextParse.lookup (ascii "action") 1 eventParser.m_data ≠ ascii "dialog_return" ∧
        (after = avatar ∨ after = CAction.log avatar .pAvatar
          (unhandledAction (TextParse.lookup (ascii "action") 1 eventParser.m_data)))) ∨
      (TextParse.lookup (ascii "action") 1 eventParser.m_data = ascii "dialog_return" ∧
        onDialogReturn globals eventParser avatar = .ok after) :=
  route_cases _ _ (by decide) onDialogReturn _ h

theorem player_of_logged {message : Bytes}
    (h : after = avatar ∨ after = CAction.log avatar .pAvatar message) :
    after.player = avatar.player := by
  rcases h with rfl | rfl
  · rfl
  · rfl

theorem acceptName_ok (avatar : Avatar) :
    ∃ after, acceptName avatar = .ok after ∧
      after.player = { avatar.player with m_rawName := avatar.player.m_detail.m_requestedName } := by
  obtain ⟨vList, hvList⟩ := PlayerDialog.send_ok .registration PlayerDialog.fillable_empty
  simp only [acceptName]
  split
  · exact ⟨_, rfl, rfl⟩
  · exact ⟨_, bind_eq_ok.mpr ⟨vList, hvList, rfl⟩, rfl⟩

end Handlers

/-! ### A text handled to the end -/

/-- The text is a login message that is decoded, of a player not logged on. -/
structure TakesName (player : Player) (text : Bytes) : Prop where
  event : eventNameOf text = ascii "requestedName"
  logged_off : ¬ player.m_detail.isFlagOn clientFlagLoggedOn
  decodes : TankInfo.Decodes (TextParse.textLines text)

structure RegistersBy (globals : Globals) (player : Player) (text : Bytes) : Prop where
  event : eventNameOf text = ascii "action"
  action : TextParse.lookup (ascii "action") 1 (TextParse.textLines text) = ascii "dialog_return"
  dialog : TextParse.lookup (ascii "dialog_name") 1 (TextParse.textLines text) =
    ascii "growid_apply"
  registers : Registers globals player (TextParse.textLines text)

def requestedNameOf (text : Bytes) : Bytes :=
  TextParse.lookup (ascii "requestedName") 1 (TextParse.textLines text)

def submissionOf (text : Bytes) : Submission := Submission.ofLines (TextParse.textLines text)

section Text
variable {globals : Globals} {text : Bytes} {avatar after : Avatar}

theorem onAction_cases (hevent : eventNameOf text = ascii "action")
    (h : onAction globals (TextParse.parse text) avatar = .ok after) :
    (¬ RegistersBy globals avatar.player text ∧ after.player = avatar.player) ∨
      (RegistersBy globals avatar.player text ∧
        after.player.identity = (submissionOf text).identity) := by
  rcases onAction_routes h with ⟨haction, hlogged⟩ | ⟨haction, h⟩
  · rw [TextParse.parse_m_data] at haction
    exact Or.inl ⟨fun hby => haction hby.action, player_of_logged hlogged⟩
  rcases onDialogReturn_routes h with ⟨hdialog, hlogged⟩ | ⟨hdialog, h⟩
  · rw [TextParse.parse_m_data] at hdialog
    exact Or.inl ⟨fun hby => hdialog hby.dialog, player_of_logged hlogged⟩
  rcases onDialogGrowIDApply_player h with ⟨hnot, hsame⟩ | ⟨hregisters, hidentity⟩
  · rw [TextParse.parse_m_data] at hnot
    exact Or.inl ⟨fun hby => hnot hby.registers, hsame⟩
  · rw [TextParse.parse_m_data] at haction hdialog hregisters hidentity
    exact Or.inr ⟨⟨hevent, haction, hdialog, hregisters⟩, hidentity⟩

theorem onRequestedName_cases (hevent : eventNameOf text = ascii "requestedName")
    (h : onRequestedName globals (TextParse.parse text) avatar = .ok after) :
    (¬ TakesName avatar.player text ∧ after.player.identity = avatar.player.identity) ∨
      (TakesName avatar.player text ∧
        after.player.identity = { avatar.player.identity with rawName := requestedNameOf text }) := by
  unfold onRequestedName at h
  split at h
  · rename_i hflag
    rw [← Except.ok.inj h]
    exact Or.inl ⟨fun htakes => htakes.logged_off hflag, rfl⟩
  rename_i hflag
  obtain ⟨⟨serialized, m_detail⟩, hserialize, h⟩ := bind_eq_ok.mp h
  obtain ⟨⟨hname, hpass⟩, hdecoded⟩ := TankInfo.serialize_ok hserialize
  cases serialized with
  | false =>
    have hnot : ¬ TankInfo.Decodes (TextParse.parse text).m_data := by
      intro hdecodes
      obtain ⟨det, hdet⟩ := TankInfo.serialize_of_decodes avatar.player.m_detail hdecodes
      rw [hdet] at hserialize
      cases hserialize
    rw [TextParse.parse_m_data] at hnot
    rw [← Except.ok.inj h]
    refine Or.inl ⟨fun htakes => hnot htakes.decodes, ?_⟩
    exact Identity.mk.injEq .. ▸ ⟨hname, hpass, rfl⟩
  | true =>
    obtain ⟨hdecodes, hrequested⟩ := hdecoded rfl
    rw [TextParse.parse_m_data] at hdecodes hrequested
    obtain ⟨accepted, haccepted, hplayer⟩ :=
      acceptName_ok { avatar with player := { avatar.player with m_detail } }
    obtain rfl := Except.ok.inj (haccepted.symm.trans h)
    refine Or.inr ⟨⟨hevent, hflag, hdecodes⟩, ?_⟩
    rw [hplayer]
    exact Identity.mk.injEq .. ▸ ⟨hname, hpass, hrequested⟩

/-- A text that is handled to the end changes what the player is known as only by
taking the requested name or by registering an account. -/
theorem handleText_cases (h : handleText globals text avatar = .ok after) :
    (¬ TakesName avatar.player text ∧ ¬ RegistersBy globals avatar.player text ∧
        after.player.identity = avatar.player.identity) ∨
      (TakesName avatar.player text ∧
        after.player.identity = { avatar.player.identity with rawName := requestedNameOf text }) ∨
      (RegistersBy globals avatar.player text ∧
        after.player.identity = (submissionOf text).identity) := by
  unfold handleText at h
  simp only [lookup_textEvents] at h
  by_cases haction : eventNameOf text = ascii "action"
  · simp only [if_pos haction] at h
    have hother : ¬ TakesName avatar.player text := fun htakes =>
      absurd (haction.symm.trans htakes.event) (by decide)
    rcases onAction_cases haction h with ⟨hnot, hsame⟩ | hregisters
    · exact Or.inl ⟨hother, hnot, congrArg Player.identity hsame⟩
    · exact Or.inr (Or.inr hregisters)
  simp only [if_neg haction] at h
  have hother : ¬ RegistersBy globals avatar.player text := fun hby => haction hby.event
  by_cases hname : eventNameOf text = ascii "requestedName"
  · simp only [if_pos hname] at h
    rcases onRequestedName_cases hname h with ⟨hnot, hsame⟩ | htakes
    · exact Or.inl ⟨hnot, hother, hsame⟩
    · exact Or.inr (Or.inl htakes)
  · simp only [if_neg hname] at h
    rw [← Except.ok.inj h]
    exact Or.inl ⟨fun htakes => hname htakes.event, hother, rfl⟩

theorem handleText_of_takesName (globals : Globals) (h : TakesName avatar.player text) :
    ∃ after, handleText globals text avatar = .ok after := by
  have hlines := h.decodes
  rw [← TextParse.parse_m_data] at hlines
  obtain ⟨m_detail, hserialize⟩ := TankInfo.serialize_of_decodes avatar.player.m_detail hlines
  obtain ⟨after, hafter, -⟩ :=
    acceptName_ok { avatar with player := { avatar.player with m_detail } }
  have hother : ascii "requestedName" ≠ ascii "action" := by decide
  refine ⟨after, ?_⟩
  unfold handleText
  simp only [lookup_textEvents, h.event, if_neg hother, if_true]
  rw [onRequestedName, if_neg h.logged_off]
  exact bind_eq_ok.mpr ⟨_, hserialize, hafter⟩

end Text

end GrowServer
