import GrowServer.Event.PlayerRuns
import GrowServer.Event.Replies

/-!
# Texts of a well-behaved client (Utils/TextParse.hpp, Event/TextEvents)

A client that builds its texts with `Add`, from keys and values without separators. What it
meant is what the handlers find, so for such texts it can be said in terms of the values
when a login or a registration is granted, what is stored then, and what ends the worker.
-/

namespace GrowServer
open LittleEndian Outcome RunLogic PlayerDialog
open StdNumber (Converts stof toLower)

/-- The name of an event ends at the first bar. -/
theorem eventNameOf_of_bar {text key rest : Bytes} (htext : text = key ++ 124 :: rest)
    (hbar : (124 : UInt8) ∉ key) : eventNameOf text = key := by
  have hbefore {name : Bytes} (hname : (124 : UInt8) ∉ name) :
      ∀ byte ∈ name, decide (byte ≠ 124) = true := by
    intro byte hbyte
    exact decide_eq_true fun heq => hname (heq ▸ hbyte)
  have hkey : text.takeWhile (fun byte => decide (byte ≠ 124)) = key := by
    rw [htext, List.takeWhile_append_of_pos (hbefore hbar)]
    simp
  obtain ⟨tail, hname, htail⟩ := eventNameOf_append text
  rw [hname, List.takeWhile_append_of_pos (hbefore (bar_not_mem_eventNameOf text))] at hkey
  cases tail with
  | nil => simpa using hkey
  | cons byte tail =>
    obtain rfl := htail byte tail rfl
    simpa using hkey

instance (entry : Entry) : Decidable entry.Keyed :=
  decidable_of_iff (entry.token = bar.bytes ∧ entry.key ≠ [] ∧ (124 : UInt8) ∉ entry.key ∧
      (124 : UInt8) ∉ entry.value)
    ⟨fun h => ⟨h.1, h.2.1, h.2.2.1, h.2.2.2⟩, fun h => ⟨h.1, h.2, h.3, h.4⟩⟩

instance (line : Bytes) : Decidable (TextParse.CleanLine line) :=
  decidable_of_iff (line ≠ [] ∧ (10 : UInt8) ∉ line ∧ (13 : UInt8) ∉ line)
    ⟨fun h => ⟨h.1, h.2.1, h.2.2⟩, fun h => ⟨h.1, h.2, h.3⟩⟩

/-- What is added to a text: keys and values that hold no separator. -/
structure ClientText where
  entries : List Entry
  keyed : ∀ entry ∈ entries, entry.Keyed
  clean : ∀ entry ∈ entries, TextParse.CleanLine entry.line

namespace ClientText

def text (this : ClientText) : Bytes := (TextParse.ofEntries this.entries).getAsString

/-- The value of the first entry with the key, and none where there is no such entry. -/
def valueOf (this : ClientText) (key : Bytes) : Bytes :=
  ((this.entries.find? fun entry => entry.key = key).map Entry.value).getD []

def eventName (this : ClientText) : Bytes := (this.entries.head?.map Entry.key).getD []

variable (this : ClientText)

theorem textLines_text : TextParse.textLines this.text = this.entries.map Entry.line := by
  have hclean : ∀ line ∈ (TextParse.ofEntries this.entries).m_data, TextParse.CleanLine line := by
    intro line hline
    rw [TextParse.ofEntries_m_data] at hline
    obtain ⟨entry, hentry, rfl⟩ := List.mem_map.mp hline
    exact this.clean entry hentry
  rw [← TextParse.parse_m_data, text, (TextParse.parse_getAsString_iff _).mpr hclean,
    TextParse.ofEntries_m_data]

theorem lookup_text (key : Bytes) :
    TextParse.lookup key 1 (TextParse.textLines this.text) = this.valueOf key := by
  rw [textLines_text, valueOf]
  cases hfirst : this.entries.find? fun entry => entry.key = key with
  | some entry => exact TextParse.lookup_lines this.keyed hfirst
  | none =>
    have hnone : ((this.entries.map Entry.line).find? fun line =>
        (TextParse.fields line).head? = some key) = none := by
      rw [List.find?_eq_none] at hfirst ⊢
      intro line hline
      obtain ⟨entry, hentry, rfl⟩ := List.mem_map.mp hline
      rw [Entry.fields_line (this.keyed entry hentry)]
      simpa using hfirst entry hentry
    rw [TextParse.lookup, hnone]
    rfl

theorem everyLineKeyed_text (key : Bytes) :
    TextParse.EveryLineKeyed key (TextParse.textLines this.text) := by
  rw [textLines_text]
  exact TextParse.everyLineKeyed_lines this.keyed key

theorem get_text (key : Bytes) :
    (TextParse.parse this.text).get key 1 = .ok (this.valueOf key) := by
  rw [TextParse.get_eq_ok_iff, TextParse.parse_m_data]
  exact ⟨this.everyLineKeyed_text key, this.lookup_text key⟩

theorem eventNameOf_text : eventNameOf this.text = this.eventName := by
  have hstring := TextParse.getAsString_eq (TextParse.ofEntries this.entries)
  rw [TextParse.ofEntries_m_data] at hstring
  cases hentries : this.entries with
  | nil =>
    rw [text, hstring, eventName, hentries]
    rfl
  | cons entry entries =>
    have hkeyed := this.keyed entry (hentries ▸ List.mem_cons_self ..)
    obtain ⟨rest, htext⟩ : ∃ rest, this.text = entry.key ++ 124 :: rest := by
      refine ⟨entry.value ++ [10] ++ (entries.map Entry.line).flatMap (· ++ [10]), ?_⟩
      rw [text, hstring, hentries, List.map_cons, List.flatMap_cons, Entry.line, hkeyed.token_eq]
      simp [bar, ascii]
    rw [eventNameOf_of_bar htext hkeyed.bar_not_mem_key, eventName, hentries]
    rfl

/-! ### When such a text ends the worker -/

/-- The three texts of a login fit their fields. -/
def LoginFits : Prop :=
  TankInfo.fits 16 (this.valueOf (ascii "requestedName")) ∧
    TankInfo.fits 3 (this.valueOf (ascii "country")) ∧ TankInfo.fits 32 (this.valueOf (ascii "rid"))

def gameVersion : Bytes := this.valueOf (ascii "game_version")

theorem accepted_iff : TankInfo.Accepted (TextParse.textLines this.text) ↔ this.LoginFits := by
  simp only [TankInfo.Accepted, LoginFits, lookup_text]

/-- Every lookup succeeds, which leaves the game version of a login. -/
theorem served_iff (globals : Globals) {player : Player}
    (hoff : player.m_detail.isFlagOn clientFlagLoggedOn = false) :
    Served globals player this.text ↔
      (this.eventName = ascii "requestedName" → this.LoginFits → Converts this.gameVersion) := by
  have hflag : ¬ player.m_detail.isFlagOn clientFlagLoggedOn := by
    rw [hoff]
    exact Bool.false_ne_true
  have hkeyed := this.everyLineKeyed_text
  constructor
  · intro h hevent hfits
    have hdecodable := h.login (this.eventNameOf_text.trans hevent) hflag
    obtain ⟨-, hconverts, -⟩ := hdecodable.rest (this.accepted_iff.mpr hfits)
    rwa [TankInfo.gameVersionText, lookup_text] at hconverts
  · intro h
    refine ⟨?_, fun _ _ => hkeyed _, fun _ _ _ key _ => hkeyed key⟩
    intro hevent _
    refine ⟨hkeyed _, fun _ => hkeyed _, fun _ _ => hkeyed _, ?_⟩
    intro haccepted
    rw [TankInfo.gameVersionText, lookup_text]
    exact ⟨hkeyed _, h (this.eventNameOf_text.symm.trans hevent) (this.accepted_iff.mp haccepted),
      hkeyed _⟩

end ClientText

/-! ### A login -/

namespace ClientText

def requestedName (this : ClientText) : Bytes := this.valueOf (ascii "requestedName")

def platform (this : ClientText) : Bytes := this.valueOf (ascii "platformID")

variable {this : ClientText}

end ClientText

/-! ### A registration -/

namespace ClientText

/-- The text returns the registration dialog. -/
structure IsRegistration (this : ClientText) : Prop where
  event : this.eventName = ascii "action"
  action : this.valueOf (ascii "action") = ascii "dialog_return"
  dialog : this.valueOf (ascii "dialog_name") = ascii "growid_apply"

def submission (this : ClientText) : Submission where
  name := this.valueOf (ascii "logon")
  password := this.valueOf (ascii "password")
  verifyPassword := this.valueOf (ascii "verify_password")

variable {this : ClientText}

theorem submissionOf_text : submissionOf this.text = this.submission := by
  simp only [submissionOf, Submission.ofLines, submission, lookup_text]

theorem isGrowIDApply_text (h : this.IsRegistration) : IsGrowIDApply this.text where
  event := this.eventNameOf_text.trans h.event
  action := (this.lookup_text _).trans h.action
  dialog := (this.lookup_text _).trans h.dialog

end ClientText

/-- The player with the account and its two items. -/
def Player.withAccount (this : Player) (submission : Submission) : Player :=
  { this with
    m_detail := { this.m_detail with
      m_tankIDName := submission.name.map toLower
      m_tankIDPass := submission.password }
    m_items := accountItems
    m_rawName := submission.name }

theorem applyGrowID_withAccount {globals : Globals} {submission : Submission}
    {avatar after : Avatar} (hitems : avatar.player.m_items = starterItems)
    (hname : TankInfo.fits 24 (submission.name.map toLower))
    (hpassword : TankInfo.fits 24 submission.password)
    (h : applyGrowID globals submission.name submission.password avatar = .ok after) :
    after.player = avatar.player.withAccount submission := by
  obtain ⟨hdetail, hrawName⟩ := applyGrowID_detail h hname hpassword
  obtain ⟨granted, hgranted, hgiven⟩ :=
    applyGrowID_of_starterItems globals submission.name submission.password hitems
  obtain rfl := Except.ok.inj (hgranted.symm.trans h)
  exact Player.mk.injEq .. ▸ ⟨hdetail, hgiven, hrawName⟩

namespace Worker

/-- A player that is served so far. -/
structure Intact (player : Player) : Prop where
  holds : HoldsStarters player
  stores : StoresClean player

theorem intact_newcomer : Intact newcomer.player := ⟨holdsStarters_newcomer, storesClean_newcomer⟩

theorem intact_effect {globals : Globals} {text : Bytes} {avatar after : Avatar}
    (h : Intact avatar.player) (heffect : Effect globals text avatar after) : Intact after.player :=
  ⟨holdsStarters_effect h.holds heffect, storesClean_effect h.stores heffect⟩

theorem completes_clientText (globals : Globals) (this : ClientText) {avatar : Avatar}
    (h : Intact avatar.player) :
    Completes (handleText globals this.text avatar) ↔
      (this.eventName = ascii "requestedName" → this.LoginFits → Converts this.gameVersion) :=
  (completes_handleText globals this.text avatar h.holds.unnamed).trans
    (this.served_iff globals h.stores.logged_off)

def line (key value : String) : Entry := ⟨ascii key, ascii value, bar.bytes⟩

def bobForm : ClientText where
  entries := [line "action" "dialog_return", line "dialog_name" "growid_apply", line "logon" "Bob1",
    line "password" "12345678", line "verify_password" "12345678"]
  keyed := by decide
  clean := by decide

/-- A registration of a player without an account is granted exactly when the table finds
it registrable, and then the account is stored and confirmed. Any other is answered with the
dialog it came from, filled in as before and with the reason, and changes nothing. -/
theorem registration_answered {items : ItemManager} {player : Player} {messages : List Message}
    {avatar : Avatar} (hcreate : Player.create items = .ok player)
    (hrun : exec (untilFailure handle) (.ok { player }) messages = .ok avatar) {globals : Globals}
    {pTable : PlayerTable} (htable : globals.playerTable = some pTable) {form : ClientText}
    (hform : form.IsRegistration) :
    ∃ after, handle avatar ⟨globals, form.text⟩ = .ok after ∧
      (avatar.player.m_detail.m_tankIDName ≠ [] → after = avatar) ∧
      (avatar.player.m_detail.m_tankIDName = [] →
        pTable.Registrable form.submission.name form.submission.password
          form.submission.verifyPassword →
        after.player = avatar.player.withAccount form.submission ∧
        after.requests = avatar.requests ++
          registeredReplies form.submission.name form.submission.password) ∧
      (avatar.player.m_detail.m_tankIDName = [] →
        ¬ pTable.Registrable form.submission.name form.submission.password
          form.submission.verifyPassword →
        after.player = avatar.player ∧
        after.requests = avatar.requests ++ [.variantList .m_pPeer (sendData 0 ⟨registrationText
          (form.submission.values (form.submission.registerPlayer pTable).m_data)⟩)]) := by
  have hintact : Intact avatar.player :=
    invariant_of_effect hcreate intact_newcomer intact_effect hrun
  have hother : ascii "action" ≠ ascii "requestedName" := by decide
  obtain ⟨after, hafter⟩ := (completes_clientText globals form hintact).mpr fun hevent =>
    absurd (hform.event.symm.trans hevent) hother
  refine ⟨after, hafter, ?_⟩
  have happly := onDialogGrowIDApply_of_routed (ClientText.isGrowIDApply_text hform) hafter
  unfold onDialogGrowIDApply at happly
  by_cases hname : avatar.player.m_detail.m_tankIDName = []
  swap
  · rw [if_pos (by rwa [List.isEmpty_iff])] at happly
    exact ⟨fun _ => (Except.ok.inj happly).symm, fun hnil => absurd hnil hname,
      fun hnil => absurd hnil hname⟩
  rw [if_neg (by simpa using hname), htable] at happly
  simp only [form.get_text] at happly
  have hsuccess := pTable.registerPlayer_success_iff form.submission.name form.submission.password
    form.submission.verifyPassword
  refine ⟨fun hne => absurd hname hne, ?_, ?_⟩
  · intro _ hregistrable
    have hregisters : Registers globals avatar.player (TextParse.textLines form.text) := by
      rw [registers_iff hname htable]
      show ((submissionOf form.text).registerPlayer pTable).m_result = .success
      rw [ClientText.submissionOf_text]
      exact hsuccess.mpr hregistrable
    have hfits := fits_of_registers hregisters
    rw [← submissionOf, ClientText.submissionOf_text] at hfits
    have hgranted : applyGrowID globals form.submission.name form.submission.password avatar =
        .ok after := by
      rw [← happly]
      exact (if_neg (not_not.mpr (hsuccess.mpr hregistrable))).symm
    exact ⟨applyGrowID_withAccount (hintact.holds.unnamed hname) hfits.1 hfits.2 hgranted,
      applyGrowID_replies hgranted hfits.1 hfits.2⟩
  · intro _ hrefused
    rcases pTable.registerPlayer_cases form.submission.name form.submission.password
      form.submission.verifyPassword with ⟨hregistrable, -⟩ | ⟨-, hresult, hne, hclean⟩
    · exact absurd hregistrable hrefused
    have hsent := (if_pos hresult).symm.trans happly
    have hvalues := clean_submission form.text hclean
    rw [ClientText.submissionOf_text] at hvalues
    have hrequests := sendDialog_registration hne hvalues hsent
    obtain ⟨vList, -, rfl⟩ := sendDialog_ok hsent
    exact ⟨rfl, hrequests⟩

def freeTable : PlayerTable := ⟨fun _ => false, true⟩

theorem registration_answered_bob :
    ∃ avatar after, exec (untilFailure handle) (.ok newcomer) [login] = .ok avatar ∧
      handle avatar ⟨⟨{}, some freeTable⟩, bobForm.text⟩ = .ok after ∧
      (avatar.player.m_detail.m_tankIDName ≠ [] → after = avatar) ∧
      (avatar.player.m_detail.m_tankIDName = [] →
        freeTable.Registrable bobForm.submission.name bobForm.submission.password
          bobForm.submission.verifyPassword →
        after.player = avatar.player.withAccount bobForm.submission ∧
        after.requests = avatar.requests ++
          registeredReplies bobForm.submission.name bobForm.submission.password) ∧
      (avatar.player.m_detail.m_tankIDName = [] →
        ¬ freeTable.Registrable bobForm.submission.name bobForm.submission.password
          bobForm.submission.verifyPassword →
        after.player = avatar.player ∧
        after.requests = avatar.requests ++ [.variantList .m_pPeer (sendData 0 ⟨registrationText
          (bobForm.submission.values (bobForm.submission.registerPlayer freeTable).m_data)⟩)]) := by
  have hcreate : Player.create {} = .ok newcomer.player := rfl
  obtain ⟨avatar, hrun⟩ : ∃ avatar, exec (untilFailure handle) (.ok newcomer) [login] =
      .ok avatar := ⟨_, rfl⟩
  have htable : (⟨{}, some freeTable⟩ : Globals).playerTable = some freeTable := rfl
  have hform : bobForm.IsRegistration := ⟨by decide, by decide, by decide⟩
  obtain ⟨after, hafter, hanswer⟩ := registration_answered hcreate hrun htable hform
  exact ⟨avatar, after, hrun, hafter, hanswer⟩

end Worker

end GrowServer
