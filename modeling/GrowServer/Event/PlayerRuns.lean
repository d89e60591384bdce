import GrowServer.Event.Completion
import GrowServer.Event.Identity
import GrowServer.Player.ItemCounts

/-!
# A player over the texts it sends (Event/TextEvents, Event/Dialogs/AccountDialog.hpp)

What holds of a player from its creation on, whatever the texts are that are handled,
whatever the database answers and in whatever order: what it owns, what is stored of its
texts, and when a text ends the worker instead.
-/

namespace GrowServer
open LittleEndian Outcome RunLogic
open StdNumber (toLower)

/-! ### What a text does -/

/-- A text that is handled to the end leaves the player as it is, decodes the login details
and takes over the requested name when they are complete, or registers an account. -/
inductive Effect (globals : Globals) (text : Bytes) (before after : Avatar) : Prop where
  | kept (h : after.player = before.player)
  | decoded (complete : Bool) (det : TankInfo)
    (hserialize : before.player.m_detail.serialize (TextParse.parse text) = .ok (complete, det))
    (h : after.player = { before.player with
      m_detail := det
      m_rawName := if complete then det.m_requestedName else before.player.m_rawName })
  | registered (hby : RegistersBy globals before.player text)
    (h : applyGrowID globals (submissionOf text).name (submissionOf text).password before =
      .ok after)

section Effects
variable {globals : Globals} {text : Bytes} {avatar after : Avatar}

theorem onRequestedName_effect
    (h : onRequestedName globals (TextParse.parse text) avatar = .ok after) :
    Effect globals text avatar after := by
  unfold onRequestedName at h
  split at h
  · rw [← Except.ok.inj h]
    exact .kept rfl
  obtain ⟨⟨serialized, m_detail⟩, hserialize, h⟩ := bind_eq_ok.mp h
  cases serialized with
  | false =>
    rw [← Except.ok.inj h]
    exact .decoded false m_detail hserialize rfl
  | true =>
    obtain ⟨accepted, haccepted, hplayer⟩ :=
      acceptName_ok { avatar with player := { avatar.player with m_detail } }
    obtain rfl := Except.ok.inj (haccepted.symm.trans h)
    exact .decoded true m_detail hserialize hplayer

theorem onAction_effect (hevent : eventNameOf text = ascii "action")
    (h : onAction globals (TextParse.parse text) avatar = .ok after) :
    Effect globals text avatar after := by
  rcases onAction_routes h with ⟨-, hlogged⟩ | ⟨haction, h⟩
  · exact .kept (player_of_logged hlogged)
  rcases onDialogReturn_routes h with ⟨-, hlogged⟩ | ⟨hdialog, h⟩
  · exact .kept (player_of_logged hlogged)
  rcases onDialogGrowIDApply_cases h with ⟨-, rfl⟩ | ⟨pTable, -, hsent⟩ | ⟨hregisters, happly⟩
  · exact .kept rfl
  · obtain ⟨vList, -, rfl⟩ := sendDialog_ok hsent
    exact .kept rfl
  · rw [TextParse.parse_m_data] at haction hdialog hregisters happly
    exact .registered ⟨hevent, haction, hdialog, hregisters⟩ happly

theorem handleText_effect (h : handleText globals text avatar = .ok after) :
    Effect globals text avatar after := by
  unfold handleText at h
  simp only [lookup_textEvents] at h
  by_cases haction : eventNameOf text = ascii "action"
  · simp only [if_pos haction] at h
    exact onAction_effect haction h
  simp only [if_neg haction] at h
  by_cases hname : eventNameOf text = ascii "requestedName"
  · simp only [if_pos hname] at h
    exact onRequestedName_effect h
  · simp only [if_neg hname] at h
    rw [← Except.ok.inj h]
    exact .kept rfl

/-- A registration writes the details of the account and nothing else of the details. -/
theorem applyGrowID_detail {name password : Bytes}
    (h : applyGrowID globals name password avatar = .ok after)
    (hname : TankInfo.fits 24 (name.map toLower)) (hpassword : TankInfo.fits 24 password) :
    after.player.m_detail =
        { avatar.player.m_detail with
          m_tankIDName := name.map toLower
          m_tankIDPass := password } ∧
      after.player.m_rawName = name := by
  obtain ⟨first, -, h⟩ := bind_eq_ok.mp h
  obtain ⟨second, -, h⟩ := bind_eq_ok.mp h
  obtain rfl := Except.ok.inj h
  refine ⟨?_, rfl⟩
  show ((avatar.player.m_detail.setTankIDName (name.map toLower)).2.setTankIDPass password).2 = _
  simp only [TankInfo.setTankIDName, TankInfo.setTankIDPass, TankInfo.setBounded, if_pos hname,
    if_pos hpassword]

end Effects

/-! ### What decoding stores -/

namespace TankInfo

/-- Each of the three texts is the one that was stored before, or one that was looked up
and fits. -/
structure DecodedFrom (before : TankInfo) (lines : List Bytes) (after : TankInfo) : Prop where
  requestedName : after.m_requestedName = before.m_requestedName ∨
    (fits 16 after.m_requestedName ∧
      after.m_requestedName = TextParse.lookup (ascii "requestedName") 1 lines)
  countryCode : after.m_countryCode = before.m_countryCode ∨
    (fits 3 after.m_countryCode ∧ after.m_countryCode = TextParse.lookup (ascii "country") 1 lines)
  relativeId : after.m_relativeId = before.m_relativeId ∨
    (fits 32 after.m_relativeId ∧ after.m_relativeId = TextParse.lookup (ascii "rid") 1 lines)
  account : SameAccount after before
  flags : after.m_flags = before.m_flags

theorem ne_nil_of_fits {limit : ℕ} {data : Bytes} (h : fits limit data) : data ≠ [] := by
  intro hnil
  rw [fits, hnil] at h
  simp at h

theorem serialize_decodedFrom {this det : TankInfo} {parser : TextParse} {complete : Bool}
    (h : this.serialize parser = .ok (complete, det)) : DecodedFrom this parser.m_data det := by
  rcases serialize_cases h with ⟨-, -, rfl⟩ | ⟨hname, -, -, rfl⟩ | ⟨hname, hcountry, -, -, rfl⟩ |
    ⟨haccepted, -, h⟩
  · exact ⟨Or.inl rfl, Or.inl rfl, Or.inl rfl, ⟨rfl, rfl⟩, rfl⟩
  · exact ⟨Or.inr ⟨hname, rfl⟩, Or.inl rfl, Or.inl rfl, ⟨rfl, rfl⟩, rfl⟩
  · exact ⟨Or.inr ⟨hname, rfl⟩, Or.inr ⟨hcountry, rfl⟩, Or.inl rfl, ⟨rfl, rfl⟩, rfl⟩
  · obtain ⟨hname, hcountry, hrid⟩ := haccepted
    obtain ⟨-, -, bits, -, hplatform⟩ := decodePlatform_writes h
    rcases hplatform with ⟨-, -, rfl⟩ | ⟨c, rest, -, -, rfl⟩
    · exact ⟨Or.inr ⟨hname, rfl⟩, Or.inr ⟨hcountry, rfl⟩, Or.inr ⟨hrid, rfl⟩, ⟨rfl, rfl⟩, rfl⟩
    · exact ⟨Or.inr ⟨hname, rfl⟩, Or.inr ⟨hcountry, rfl⟩, Or.inr ⟨hrid, rfl⟩, ⟨rfl, rfl⟩, rfl⟩

end TankInfo

/-! ### What every player keeps -/

/-- The backpack follows from whether the player has an account. -/
structure HoldsStarters (player : Player) : Prop where
  unnamed : player.m_detail.m_tankIDName = [] → player.m_items = starterItems
  named : player.m_detail.m_tankIDName ≠ [] → player.m_items = accountItems

theorem holdsStarters_effect {globals : Globals} {text : Bytes} {avatar after : Avatar}
    (h : HoldsStarters avatar.player) (heffect : Effect globals text avatar after) :
    HoldsStarters after.player := by
  cases heffect with
  | kept hkept => rwa [hkept]
  | decoded complete det hserialize hplayer =>
    have haccount := (TankInfo.serialize_decodedFrom hserialize).account
    rw [hplayer]
    exact ⟨fun hname => h.unnamed (haccount.1.symm.trans hname),
      fun hname => h.named fun hnil => hname (haccount.1.trans hnil)⟩
  | registered hby happly =>
    obtain ⟨hname, hpassword⟩ := fits_of_registers hby.registers
    obtain ⟨hdetail, -⟩ := applyGrowID_detail happly hname hpassword
    obtain ⟨granted, hgranted, hitems⟩ := applyGrowID_of_starterItems globals
      (submissionOf text).name (submissionOf text).password (h.unnamed hby.registers.1)
    obtain rfl := Except.ok.inj (hgranted.symm.trans happly)
    have hnamed : granted.player.m_detail.m_tankIDName ≠ [] := by
      rw [hdetail]
      exact TankInfo.ne_nil_of_fits hname
    exact ⟨fun hnil => absurd hnil hnamed, fun _ => hitems⟩

/-- A text of the length that fits, without any separator. -/
structure StoredText (limit : ℕ) (data : Bytes) : Prop where
  length_le : data.length ≤ limit
  clean : Template.Clean 10 124 data
  unbroken : Unbroken data

theorem storedText_nil (limit : ℕ) : StoredText limit [] :=
  ⟨Nat.zero_le _, Template.clean_nil, List.not_mem_nil, List.not_mem_nil⟩

theorem storedText_lookup (text key : Bytes) {limit : ℕ}
    (h : (TextParse.lookup key 1 (TextParse.textLines text)).length ≤ limit) :
    StoredText limit (TextParse.lookup key 1 (TextParse.textLines text)) :=
  ⟨h, TextParse.clean_lookup text key 1, unbroken_lookup text key 1⟩

theorem storedText_fits {text key data : Bytes} {limit : ℕ} (hfits : TankInfo.fits limit data)
    (hdata : data = TextParse.lookup key 1 (TextParse.textLines text)) : StoredText limit data := by
  rw [TankInfo.fits, decide_eq_true_eq] at hfits
  subst hdata
  exact storedText_lookup text key (by omega)

theorem length_le_of_storedText {limit limit' : ℕ} {data : Bytes} (h : StoredText limit data)
    (hle : limit ≤ limit') : StoredText limit' data :=
  ⟨h.length_le.trans hle, h.clean, h.unbroken⟩

/-- Whatever is stored of a player's texts fits its field and holds no separator, and
nothing logs the player on. -/
structure StoresClean (player : Player) : Prop where
  requestedName : StoredText 16 player.m_detail.m_requestedName
  countryCode : StoredText 3 player.m_detail.m_countryCode
  relativeId : StoredText 32 player.m_detail.m_relativeId
  tankIDName : StoredText 18 player.m_detail.m_tankIDName
  tankIDPass : StoredText 24 player.m_detail.m_tankIDPass
  rawName : StoredText 18 player.m_rawName
  logged_off : player.m_detail.isFlagOn clientFlagLoggedOn = false

/-- A name that is accepted holds letters and digits only. -/
theorem storedText_of_validName {name : Bytes} (hvalid : Utils.isValidUsername name)
    (hlength : name.length ≤ 18) : StoredText 18 (name.map toLower) := by
  have hchars := Utils.mem_map_toLower hvalid
  have hother {byte : UInt8} (hbyte : ¬ ((97 ≤ byte ∧ byte ≤ 122) ∨ (48 ≤ byte ∧ byte ≤ 57))) :
      byte ∉ name.map toLower := fun hmem => hbyte (hchars byte hmem)
  exact ⟨by rwa [List.length_map], ⟨hother (by decide), hother (by decide)⟩,
    hother (by decide), hother (by decide)⟩

theorem storesClean_effect {globals : Globals} {text : Bytes} {avatar after : Avatar}
    (h : StoresClean avatar.player) (heffect : Effect globals text avatar after) :
    StoresClean after.player := by
  cases heffect with
  | kept hkept => rwa [hkept]
  | decoded complete det hserialize hplayer =>
    have hdecoded := TankInfo.serialize_decodedFrom hserialize
    rw [TextParse.parse_m_data] at hdecoded
    have hname : StoredText 16 det.m_requestedName := by
      rcases hdecoded.requestedName with hsame | ⟨hfits, hlookup⟩
      · exact hsame ▸ h.requestedName
      · exact storedText_fits hfits hlookup
    rw [hplayer]
    refine ⟨hname, ?_, ?_, ?_, ?_, ?_, ?_⟩
    · rcases hdecoded.countryCode with hsame | ⟨hfits, hlookup⟩
      · exact hsame ▸ h.countryCode
      · exact storedText_fits hfits hlookup
    · rcases hdecoded.relativeId with hsame | ⟨hfits, hlookup⟩
      · exact hsame ▸ h.relativeId
      · exact storedText_fits hfits hlookup
    · exact hdecoded.account.1 ▸ h.tankIDName
    · exact hdecoded.account.2 ▸ h.tankIDPass
    · cases complete with
      | false => exact h.rawName
      | true => exact length_le_of_storedText hname (by decide)
    · have hflags := h.logged_off
      rw [TankInfo.isFlagOn] at hflags ⊢
      rwa [hdecoded.flags]
  | registered hby happly =>
    obtain ⟨hname, hpassword⟩ := fits_of_registers hby.registers
    obtain ⟨hdetail, hrawName⟩ := applyGrowID_detail happly hname hpassword
    obtain ⟨-, pTable, -, hregistrable⟩ := hby.registers
    have hlogon : StoredText 18 (submissionOf text).name :=
      storedText_lookup text _ hregistrable.name_length.2
    refine ⟨?_, ?_, ?_, ?_, ?_, ?_, ?_⟩
    · exact hdetail ▸ h.requestedName
    · exact hdetail ▸ h.countryCode
    · exact hdetail ▸ h.relativeId
    · exact hdetail ▸ storedText_of_validName hregistrable.valid_name hregistrable.name_length.2
    · exact hdetail ▸ storedText_lookup text _ hregistrable.password_length.2
    · exact hrawName ▸ hlogon
    · rw [hdetail]
      exact h.logged_off

/-! ### Runs from a new player -/

namespace Worker

/-- An invariant that every effect keeps and a new player has holds after every run. -/
theorem invariant_of_effect {I : Player → Prop} {items : ItemManager} {player : Player}
    {messages : List Message} {after : Avatar} (hcreate : Player.create items = .ok player)
    (hstart : I newcomer.player)
    (hstep : ∀ {globals text before after}, I before.player →
      Effect globals text before after → I after.player)
    (hafter : exec (untilFailure handle) (.ok { player }) messages = .ok after) :
    I after.player := by
  obtain rfl := Except.ok.inj hcreate
  have hreached : Reached (ε := Fault) (fun avatar : Avatar => I avatar.player) (.ok newcomer) := by
    intro avatar havatar
    rwa [← Except.ok.inj havatar]
  exact reached_exec messages hreached
    (fun _ _ _ h hstep' => hstep h (handleText_effect hstep')) after hafter

theorem holdsStarters_newcomer : HoldsStarters newcomer.player :=
  ⟨fun _ => rfl, fun h => absurd rfl h⟩

theorem storesClean_newcomer : StoresClean newcomer.player :=
  ⟨storedText_nil 16, storedText_nil 3, storedText_nil 32, storedText_nil 18, storedText_nil 24,
    storedText_nil 18, rfl⟩

def heldItems (player : Player) : List UInt16 :=
  if player.m_detail.m_tankIDName = [] then [itemFist, itemWrench]
  else [itemFist, itemWrench, itemMyFirstWorldLock, itemPickaxe]

theorem countOf_starterItems (itemId : UInt16) :
    starterItems.countOf itemId = if itemId ∈ [itemFist, itemWrench] then 1 else 0 := by
  have hempty : ({} : PlayerItems).countOf itemId = 0 := rfl
  simp only [starterItems, PlayerItems.countOf_put, hempty, List.mem_cons, List.not_mem_nil,
    or_false, eq_comm (a := itemId)]
  split
  · simp [*]
  · simp [*]

theorem countOf_accountItems (itemId : UInt16) :
    accountItems.countOf itemId =
      if itemId ∈ [itemFist, itemWrench, itemMyFirstWorldLock, itemPickaxe] then 1 else 0 := by
  simp only [accountItems, PlayerItems.countOf_put, countOf_starterItems, List.mem_cons,
    List.not_mem_nil, or_false, eq_comm (b := itemId)]
  split
  · simp [*]
  · split
    · simp [*]
    · simp [*]

/-- No text makes a player own anything but the starter items, and with an account the two
items of an account, each of them once. -/
theorem backpack_exact {items : ItemManager} {player : Player} {messages : List Message}
    {after : Avatar} (hcreate : Player.create items = .ok player)
    (hafter : exec (untilFailure handle) (.ok { player }) messages = .ok after) :
    after.player.m_items.m_bpItems.entries.length = (heldItems after.player).length ∧
      ∀ itemId, after.player.m_items.countOf itemId =
        if itemId ∈ heldItems after.player then 1 else 0 := by
  have hholds := invariant_of_effect hcreate holdsStarters_newcomer holdsStarters_effect hafter
  unfold heldItems
  by_cases hname : after.player.m_detail.m_tankIDName = []
  · rw [if_pos hname, hholds.unnamed hname]
    exact ⟨rfl, countOf_starterItems⟩
  · rw [if_neg hname, hholds.named hname]
    exact ⟨rfl, countOf_accountItems⟩

theorem backpack_exact_registration :
    ∃ after, Player.create {} = .ok newcomer.player ∧
      exec (untilFailure handle) (.ok newcomer) [registration, registration] = .ok after ∧
      after.player.m_items.m_bpItems.entries.length = (heldItems after.player).length ∧
      ∀ itemId, after.player.m_items.countOf itemId =
        if itemId ∈ heldItems after.player then 1 else 0 := by
  obtain ⟨after, hafter⟩ : ∃ after, exec (untilFailure handle) (.ok newcomer)
      [registration, registration] = .ok after := ⟨_, rfl⟩
  have hcreate : Player.create {} = .ok newcomer.player := rfl
  exact ⟨after, hcreate, hafter, backpack_exact hcreate hafter⟩

/-- Whatever a player sends, what is stored of it fits and can stand in any line of a text
or a dialog. -/
theorem stores_clean {items : ItemManager} {player : Player} {messages : List Message}
    {after : Avatar} (hcreate : Player.create items = .ok player)
    (hafter : exec (untilFailure handle) (.ok { player }) messages = .ok after) :
    StoresClean after.player :=
  invariant_of_effect hcreate storesClean_newcomer storesClean_effect hafter

theorem stores_clean_login :
    ∃ after, Player.create {} = .ok newcomer.player ∧
      exec (untilFailure handle) (.ok newcomer) [login, registration] = .ok after ∧
      StoresClean after.player := by
  obtain ⟨after, hafter⟩ : ∃ after, exec (untilFailure handle) (.ok newcomer)
      [login, registration] = .ok after := ⟨_, rfl⟩
  have hcreate : Player.create {} = .ok newcomer.player := rfl
  exact ⟨after, hcreate, hafter, stores_clean hcreate hafter⟩

/-- The handlers come to the end of the texts of a player exactly when each of them is served
in its turn. -/
theorem handles_all_iff {avatar : Avatar} (messages : List Message)
    (h : HoldsStarters avatar.player) :
    (∃ after, exec (untilFailure handle) (.ok avatar) messages = .ok after) ↔
      Along (untilFailure handle)
        (OnState fun avatar message => Served message.globals avatar.player message.text)
        (.ok avatar) messages :=
  exec_ok_iff_along (I := fun avatar : Avatar => HoldsStarters avatar.player) messages h
    (fun _ _ _ h hstep => holdsStarters_effect h (handleText_effect hstep))
    fun avatar message h => completes_handleText message.globals message.text avatar h.unnamed

end Worker

end GrowServer
