import GrowServer.Manager.Database.PlayerTable
import GrowServer.Player.Player
import GrowServer.Server.ServicePoll

/-!
# The registered events (Event/TextEvents, Event/Dialogs/AccountDialog.hpp)

The handlers the worker runs for the text of a client: the login message, and the
actions, of which a returned dialog can be the registration of an account.
-/

namespace GrowServer
open LittleEndian StdNumber Outcome

/-- The global objects the handlers reach: `GetItemManager()` and the player table of
`GetDatabase()`. -/
structure Globals where
  items : ItemManager
  playerTable : Option PlayerTable

/-- A slot of an `EventSignal`, with the arguments the handlers read. -/
abbrev EventFunction := Globals → TextParse → Avatar → Except Fault Avatar

def configurationName : Bytes := ascii "Growtopia Server"

def registrationEntries (name password verifyPassword extraMessage : Bytes) :
    List (Bytes × Bytes) :=
  [(ascii "logon", name), (ascii "password", password),
    (ascii "verify_password", verifyPassword), (ascii "extra_message", extraMessage)]

/-- AccountDialog.hpp:38-55, for an account that passed the checks. -/
def applyGrowID (globals : Globals) (name password : Bytes) (avatar : Avatar) :
    Except Fault Avatar := do
  let det := (avatar.player.m_detail.setTankIDName (name.map toLower)).2
  let det := (det.setTankIDPass password).2
  let (_, pItems) ←
    PlayerItems.addItem globals.items avatar.player.m_items itemMyFirstWorldLock 1
  let (_, pItems) ← PlayerItems.addItem globals.items pItems itemPickaxe 1
  let avatar := { avatar with player :=
    { avatar.player with m_detail := det, m_items := pItems, m_rawName := name } }
  let avatar := CAction.playSFX avatar .pAvatar (ascii "success") 0
  let avatar := VarList.setHasGrowID avatar .pAvatar true name det.m_tankIDPass
  let avatar := VarList.onConsoleMessage avatar .pAvatar
    (ascii "`oA `wGrowID`` with the logon of `w" ++ avatar.player.m_rawName ++ ascii
      "`` created. Write it and your password down as the will be required to logon!``")
  return VarList.onConsoleMessage avatar .pAvatar
    (ascii "`5Welcome to `w" ++ configurationName ++
      ascii "`5, press `wBack`` and then press `wConnect``, enjoy!")

def onDialogGrowIDApply : EventFunction := fun globals eventParser avatar =>
  if ¬ avatar.player.m_detail.m_tankIDName.isEmpty then return avatar
  else
    match globals.playerTable with
    | none => return avatar
    | some pTable => do
      let name ← eventParser.get (ascii "logon") 1
      let password ← eventParser.get (ascii "password") 1
      let verifyPassword ← eventParser.get (ascii "verify_password") 1
      let playerAccount := pTable.registerPlayer name password verifyPassword
      if playerAccount.m_result ≠ .success then
        avatar.sendDialog .registration
          (TextParse.ofPairs
            (registrationEntries name password verifyPassword playerAccount.m_data))
      else applyGrowID globals name password avatar

def dialogEvents : AList (fun _ : Bytes => EventFunction) :=
  AList.insert (ascii "growid_apply") onDialogGrowIDApply ∅

def onDialogReturn : EventFunction := fun globals eventParser avatar => do
  if ¬ (← eventParser.contain (ascii "dialog_name")) then return avatar
  else
    let eventName ← eventParser.get (ascii "dialog_name") 1
    match dialogEvents.lookup eventName with
    | none =>
      return CAction.log avatar .pAvatar
        (ascii "`oUnhandled OnAction::OnDialogReturn, eventName(`w" ++ eventName ++ ascii "``)``")
    | some eventFunction => eventFunction globals eventParser avatar

def actionEvents : AList (fun _ : Bytes => EventFunction) :=
  AList.insert (ascii "dialog_return") onDialogReturn ∅

def onAction : EventFunction := fun globals eventParser avatar => do
  if ¬ (← eventParser.contain (ascii "action")) then return avatar
  else
    let eventName ← eventParser.get (ascii "action") 1
    match actionEvents.lookup eventName with
    | none =>
      return CAction.log avatar .pAvatar
        (ascii "`oUnhandled TextEvents::OnAction, eventName(`w" ++ eventName ++ ascii "``)``")
    | some eventFunction => eventFunction globals eventParser avatar

def acceptName (avatar : Avatar) : Except Fault Avatar :=
  let m_rawName := avatar.player.m_detail.m_requestedName
  let avatar := { avatar with player := { avatar.player with m_rawName } }
  if ¬ Utils.isValidUsername m_rawName ∨ m_rawName.length < 3 ∨ m_rawName.length > 10 then
    let avatar := CAction.log avatar .pAvatar
      (ascii "`4Oops! `oYour name is including invalid characters, please try again.``")
    return avatar.requestDisconnect
  else avatar.sendDialog .registration {}

def onRequestedName : EventFunction := fun _ eventParser avatar =>
  if avatar.player.m_detail.isFlagOn clientFlagLoggedOn then return avatar
  else do
    let (serialized, m_detail) ← avatar.player.m_detail.serialize eventParser
    let avatar := { avatar with player := { avatar.player with m_detail } }
    if ¬ serialized then return avatar.requestDisconnect else acceptName avatar

def textEvents : AList (fun _ : Bytes => EventFunction) :=
  AList.insert (ascii "action") onAction
    (AList.insert (ascii "requestedName") onRequestedName ∅)

-- the tank data of a text event is null
def unhandledEvent (avatar : Avatar) (eventName : Bytes) (eventParser : TextParse) : Avatar :=
  CAction.log avatar .pAvatar
    (ascii "`oUnhandled Event, eventName(`w" ++ eventName ++ ascii "``) textParse(`w" ++
      toDecimal eventParser.getSize ++ ascii "``) tankData(`w0x0``)``")

/-- What the worker does with a text of the player. -/
def handleText (globals : Globals) (text : Bytes) (avatar : Avatar) : Except Fault Avatar :=
  let eventName := eventNameOf text
  let eventParser := TextParse.parse text
  match textEvents.lookup eventName with
  | none => return unhandledEvent avatar eventName eventParser
  | some eventFunction => eventFunction globals eventParser avatar

def Dispatch.handle (globals : Globals) (avatar : Avatar) :
    Dispatch EventFunction → Except Fault Avatar
  | run eventFunction data => eventFunction globals data.eventParser avatar
  | unhandled data => return unhandledEvent avatar data.eventName data.eventParser

/-! ### When a text is handled to the end -/

def DecodesVersion (player : Player) (lines : List Bytes) : Prop :=
  ¬ player.m_detail.isFlagOn clientFlagLoggedOn ∧ TankInfo.Accepted lines

def Registers (globals : Globals) (player : Player) (lines : List Bytes) : Prop :=
  player.m_detail.m_tankIDName = [] ∧ ∃ pTable, globals.playerTable = some pTable ∧
    pTable.Registrable (TextParse.lookup (ascii "logon") 1 lines)
      (TextParse.lookup (ascii "password") 1 lines)
      (TextParse.lookup (ascii "verify_password") 1 lines)

/-- The starter items the player holds already are not the id behind the item table. -/
def StarterItemsInside (globals : Globals) (player : Player) : Prop :=
  ∀ itemId ∈ [itemMyFirstWorldLock, itemPickaxe], itemId ∈ player.m_items.m_bpItems →
    globals.items.m_items.length ≠ itemId.toNat

/-- The two ways in which handling a text can fail are avoided. -/
structure Handleable (globals : Globals) (player : Player) (text : Bytes) : Prop where
  version_converts : eventNameOf text = ascii "requestedName" →
    DecodesVersion player (TextParse.textLines text) →
    Converts (TankInfo.gameVersionText (TextParse.textLines text))
  starter_items_inside : eventNameOf text = ascii "action" →
    TextParse.lookup (ascii "action") 1 (TextParse.textLines text) = ascii "dialog_return" →
    TextParse.lookup (ascii "dialog_name") 1 (TextParse.textLines text) = ascii "growid_apply" →
    Registers globals player (TextParse.textLines text) → StarterItemsInside globals player

theorem sendDialog_completesIff (avatar : Avatar) (eType : DialogType) {data : TextParse}
    (h : PlayerDialog.Fillable data) :
    CompletesIff .tokenIndex (avatar.sendDialog eType data) True := by
  obtain ⟨vList, hvList⟩ := PlayerDialog.send_ok eType h
  unfold Avatar.sendDialog
  rw [hvList]
  exact CompletesIff.ok _

theorem applyGrowID_completesIff (globals : Globals) (name password : Bytes) (avatar : Avatar) :
    CompletesIff .tokenIndex (applyGrowID globals name password avatar)
      (StarterItemsInside globals avatar.player) := by
  have hcount : ¬ (1 : UInt8) < 1 := by decide
  unfold applyGrowID
  refine (CompletesIff.bind (PlayerItems.addItem_completesIff _ _ _ _ hcount)
    (Q := itemPickaxe ∈ avatar.player.m_items.m_bpItems →
      globals.items.m_items.length ≠ itemPickaxe.toNat) ?_).congr ?_
  · intro result hadded
    obtain ⟨added, pItems⟩ := result
    have hmem : itemPickaxe ∈ pItems.m_bpItems ↔
        itemPickaxe ∈ avatar.player.m_items.m_bpItems :=
      PlayerItems.mem_addItem hadded (by decide)
    rw [← hmem]
    refine (CompletesIff.bind (PlayerItems.addItem_completesIff _ _ _ _ hcount)
      (Q := True) fun _ _ => CompletesIff.ok _).congr ?_
    rw [and_true]
  · simp [StarterItemsInside]

theorem registrationEntries_keys {name password verifyPassword extraMessage : Bytes}
    {it : Bytes × Bytes}
    (h : it ∈ registrationEntries name password verifyPassword extraMessage) :
    it.1 ≠ [] ∧ (124 : UInt8) ∉ it.1 ∧ it.1 ≠ ascii "delayMS" := by
  have hkeys : ∀ key ∈ [ascii "logon", ascii "password", ascii "verify_password",
      ascii "extra_message"], key ≠ [] ∧ (124 : UInt8) ∉ key ∧ key ≠ ascii "delayMS" := by decide
  exact hkeys it.1 (List.mem_map_of_mem h)

theorem registrationEntries_fillable (name password verifyPassword extraMessage : Bytes) :
    PlayerDialog.Fillable
      (TextParse.ofPairs (registrationEntries name password verifyPassword extraMessage)) := by
  refine PlayerDialog.fillable_ofPairs _ ?_ ?_
  · intro it hit
    obtain ⟨hne, hbar, -⟩ := registrationEntries_keys hit
    exact ⟨hne, hbar⟩
  · intro it hit
    exact (registrationEntries_keys hit).2.2

theorem onDialogGrowIDApply_completesIff (globals : Globals) (eventParser : TextParse)
    (avatar : Avatar) :
    CompletesIff .tokenIndex (onDialogGrowIDApply globals eventParser avatar)
      (Registers globals avatar.player eventParser.m_data →
        StarterItemsInside globals avatar.player) := by
  unfold onDialogGrowIDApply
  by_cases hname : avatar.player.m_detail.m_tankIDName = []
  swap
  · rw [if_pos (by rwa [List.isEmpty_iff])]
    exact (CompletesIff.ok _).congr (iff_of_true trivial fun h => absurd h.1 hname)
  rw [if_neg (by simpa using hname)]
  cases htable : globals.playerTable with
  | none =>
    refine (CompletesIff.ok _).congr (iff_of_true trivial fun h => ?_)
    obtain ⟨pTable, hsome, -⟩ := h.2
    rw [htable] at hsome
    cases hsome
  | some pTable =>
    refine CompletesIff.bind_value (eventParser.get_valueOr _ 1)
      (CompletesIff.bind_value (eventParser.get_valueOr _ 1)
        (CompletesIff.bind_value (eventParser.get_valueOr _ 1) ?_))
    have hregisters : Registers globals avatar.player eventParser.m_data ↔
        (pTable.registerPlayer (TextParse.lookup (ascii "logon") 1 eventParser.m_data)
          (TextParse.lookup (ascii "password") 1 eventParser.m_data)
          (TextParse.lookup (ascii "verify_password") 1 eventParser.m_data)).m_result =
            .success := by
      rw [pTable.registerPlayer_success_iff, Registers, htable]
      constructor
      · intro hregisters
        obtain ⟨-, pTable', hsome, h⟩ := hregisters
        rwa [Option.some.inj hsome]
      · intro h
        exact ⟨hname, pTable, rfl, h⟩
    refine (CompletesIff.ite
      (fun _ => sendDialog_completesIff avatar .registration (registrationEntries_fillable _ _ _ _))
      fun _ => applyGrowID_completesIff _ _ _ _).congr ?_
    rw [hregisters, not_not]
    exact ⟨fun h => h.2, fun h => ⟨fun _ => trivial, h⟩⟩

theorem lookup_insert_empty (keyName eventName : Bytes) (eventFunction : EventFunction) :
    (AList.insert keyName eventFunction (∅ : AList fun _ : Bytes => EventFunction)).lookup
      eventName = if eventName = keyName then some eventFunction else none := by
  by_cases h : eventName = keyName
  · rw [if_pos h, h]
    exact AList.lookup_insert _
  · rw [if_neg h, AList.lookup_insert_ne h]
    rfl

/-- Both layers of actions name the next event in an entry, which is run when the
table has it and logged when not. -/
theorem route_completesIff (globals : Globals) (eventParser : TextParse) (avatar : Avatar)
    (key keyName : Bytes) (hkey : keyName ≠ []) (eventFunction : EventFunction)
    (log : Bytes → Avatar) {P : Prop}
    (hfunction : CompletesIff .tokenIndex (eventFunction globals eventParser avatar) P) :
    CompletesIff .tokenIndex
      (do
        if ¬ (← eventParser.contain key) then return avatar
        else
          let eventName ← eventParser.get key 1
          match (AList.insert keyName eventFunction
            (∅ : AList fun _ : Bytes => EventFunction)).lookup eventName with
          | none => return log eventName
          | some eventFunction => eventFunction globals eventParser avatar)
      (TextParse.lookup key 1 eventParser.m_data = keyName → P) := by
  refine CompletesIff.bind_value (eventParser.contain_valueOr key) ?_
  generalize hname : TextParse.lookup key 1 eventParser.m_data = eventName
  by_cases hempty : eventName = []
  · rw [if_pos (by simp [hempty])]
    refine (CompletesIff.ok _).congr (iff_of_true trivial fun h => ?_)
    exact absurd (h.symm.trans hempty) hkey
  · rw [if_neg (by simpa using hempty)]
    refine CompletesIff.bind_value (eventParser.get_valueOr key 1) ?_
    rw [hname, lookup_insert_empty]
    by_cases h : eventName = keyName
    · simp only [if_pos h]
      exact hfunction.congr (true_imp_iff.symm.trans (imp_congr_left (iff_of_true trivial h)))
    · simp only [if_neg h]
      exact (CompletesIff.ok _).congr (iff_of_true trivial fun heq => absurd heq h)

theorem onDialogReturn_completesIff (globals : Globals) (eventParser : TextParse)
    (avatar : Avatar) :
    CompletesIff .tokenIndex (onDialogReturn globals eventParser avatar)
      (TextParse.lookup (ascii "dialog_name") 1 eventParser.m_data = ascii "growid_apply" →
        Registers globals avatar.player eventParser.m_data →
          StarterItemsInside globals avatar.player) :=
  route_completesIff globals eventParser avatar _ _ (by decide) onDialogGrowIDApply _
    (onDialogGrowIDApply_completesIff globals eventParser avatar)

theorem onAction_completesIff (globals : Globals) (eventParser : TextParse) (avatar : Avatar) :
    CompletesIff .tokenIndex (onAction globals eventParser avatar)
      (TextParse.lookup (ascii "action") 1 eventParser.m_data = ascii "dialog_return" →
        TextParse.lookup (ascii "dialog_name") 1 eventParser.m_data = ascii "growid_apply" →
          Registers globals avatar.player eventParser.m_data →
            StarterItemsInside globals avatar.player) :=
  route_completesIff globals eventParser avatar _ _ (by decide) onDialogReturn _
    (onDialogReturn_completesIff globals eventParser avatar)

theorem acceptName_completesIff (avatar : Avatar) :
    CompletesIff .tokenIndex (acceptName avatar) True := by
  unfold acceptName
  refine (CompletesIff.ite (fun _ => CompletesIff.ok _) fun _ =>
    sendDialog_completesIff _ .registration PlayerDialog.fillable_empty).congr ?_
  simp

theorem onRequestedName_completesIff (globals : Globals) (eventParser : TextParse)
    (avatar : Avatar) :
    CompletesIff .tokenIndex (onRequestedName globals eventParser avatar)
      (DecodesVersion avatar.player eventParser.m_data →
        Converts (TankInfo.gameVersionText eventParser.m_data)) := by
  unfold onRequestedName
  refine (CompletesIff.ite (fun _ => CompletesIff.ok _) fun _ =>
    CompletesIff.bind (TankInfo.serialize_completesIff _ eventParser) (Q := True) ?_).congr ?_
  · intro result _
    obtain ⟨serialized, m_detail⟩ := result
    refine (CompletesIff.ite (fun _ => CompletesIff.ok _) fun _ =>
      acceptName_completesIff _).congr ?_
    simp
  · rw [and_true, DecodesVersion]
    exact ⟨fun h hdecodes => h.2 hdecodes.1 hdecodes.2,
      fun h => ⟨fun _ => trivial, fun hflag haccepted => h ⟨hflag, haccepted⟩⟩⟩

theorem lookup_textEvents (eventName : Bytes) :
    textEvents.lookup eventName =
      if eventName = ascii "action" then some onAction
      else if eventName = ascii "requestedName" then some onRequestedName else none := by
  unfold textEvents
  by_cases h : eventName = ascii "action"
  · rw [if_pos h, h]
    exact AList.lookup_insert _
  · rw [if_neg h, AList.lookup_insert_ne h]
    exact lookup_insert_empty _ _ _

theorem handleText_completesIff (globals : Globals) (text : Bytes) (avatar : Avatar) :
    CompletesIff .tokenIndex (handleText globals text avatar)
      (Handleable globals avatar.player text) := by
  have hlines := TextParse.parse_m_data text
  unfold handleText
  simp only [lookup_textEvents]
  by_cases haction : eventNameOf text = ascii "action"
  · simp only [if_pos haction]
    refine (onAction_completesIff globals _ avatar).congr ?_
    rw [hlines]
    exact ⟨fun h => ⟨fun hname => absurd (haction.symm.trans hname) (by decide), fun _ => h⟩,
      fun h => h.starter_items_inside haction⟩
  · simp only [if_neg haction]
    by_cases hname : eventNameOf text = ascii "requestedName"
    · simp only [if_pos hname]
      refine (onRequestedName_completesIff globals _ avatar).congr ?_
      rw [hlines]
      exact ⟨fun h => ⟨fun _ => h, fun heq => absurd heq haction⟩,
        fun h => h.version_converts hname⟩
    · simp only [if_neg hname]
      exact (CompletesIff.ok _).congr
        (iff_of_true trivial ⟨fun h => absurd h hname, fun h => absurd h haction⟩)

/-- A text on which no `Get` leaves its tokens is handled to the end exactly when a
login message that gets as far as its game version has a number in range there, and
no starter item of an account that is created is the id behind the item table. -/
theorem handleText_ok_iff (globals : Globals) (text : Bytes) (avatar : Avatar)
    (h : handleText globals text avatar ≠ .error .tokenIndex) :
    (∃ after, handleText globals text avatar = .ok after) ↔
      Handleable globals avatar.player text :=
  handleText_completesIff globals text avatar h

def newcomer : Avatar :=
  { player := { m_items := (({} : PlayerItems).put itemFist 1).put itemWrench 1 } }

example : Player.create {} = .ok newcomer.player := rfl

theorem handleText_ok_login :
    (∃ after, handleText ⟨{}, none⟩ (ascii "requestedName|abc\ncountry|us\nrid|1\ngame_version|4.5")
        newcomer = .ok after) ↔
      Handleable ⟨{}, none⟩ newcomer.player
        (ascii "requestedName|abc\ncountry|us\nrid|1\ngame_version|4.5") := by
  refine handleText_ok_iff _ _ _ fun h => ?_
  have hok : (handleText ⟨{}, none⟩
      (ascii "requestedName|abc\ncountry|us\nrid|1\ngame_version|4.5") newcomer).isOk := by decide
  rw [h] at hok
  cases hok

theorem not_handleText_ok :
    ¬ (handleText ⟨{}, none⟩ (ascii "requestedName|abc\ncountry|us\nrid|1") newcomer ≠
        .error .tokenIndex →
      ∃ after, handleText ⟨{}, none⟩ (ascii "requestedName|abc\ncountry|us\nrid|1") newcomer =
        .ok after) := by
  have hfault : handleText ⟨{}, none⟩ (ascii "requestedName|abc\ncountry|us\nrid|1") newcomer =
      .error .invalidArgument := rfl
  rw [hfault]
  intro h
  obtain ⟨after, hafter⟩ := h nofun
  cases hafter

end GrowServer
