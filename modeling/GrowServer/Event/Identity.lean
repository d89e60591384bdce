import GrowServer.Event.HandlerEffects
import GrowServer.Lib.FailingRun

/-!
# The identity of a player over the messages of the worker

The texts of one player in the order in which the worker handles them, each with the
item table and the answers of the database at that time. A text that is not handled
to the end takes the server down, so it ends the run. A text without a handler is never
taken from the queue, so behind it the worker handles nothing but that text again.
-/

namespace GrowServer
open LittleEndian Outcome RunLogic

structure Message where
  globals : Globals
  text : Bytes

namespace Worker

def handle (avatar : Avatar) (message : Message) : Except Fault Avatar :=
  handleText message.globals message.text avatar

/-! ### A registered identity -/

def KeepsIdentity (avatar : Avatar) (message : Message) : Prop :=
  avatar.player.m_detail.m_tankIDName ≠ [] →
    ∀ after, handle avatar message = .ok after → after.player.identity = avatar.player.identity

/-- A login message of a player with a GrowID that is decoded, which it is while the
player is not flagged as logged on, asks for the raw name the player has. -/
def AsksOwnName (avatar : Avatar) (message : Message) : Prop :=
  avatar.player.m_detail.m_tankIDName ≠ [] → TakesName avatar.player message.text →
    requestedNameOf message.text = avatar.player.m_rawName

theorem keepsIdentity_iff (avatar : Avatar) (message : Message) :
    KeepsIdentity avatar message ↔ AsksOwnName avatar message := by
  constructor
  · intro hkeeps hname htakes
    obtain ⟨after, hafter⟩ := handleText_of_takesName message.globals htakes
    have hsame := hkeeps hname after hafter
    rcases handleText_cases hafter with ⟨hnot, -⟩ | ⟨-, htaken⟩ | ⟨hby, -⟩
    · exact absurd htakes hnot
    · exact congrArg Identity.rawName (htaken.symm.trans hsame)
    · exact absurd hby.registers.1 hname
  · intro hasks hname after hafter
    rcases handleText_cases hafter with ⟨-, -, hsame⟩ | ⟨htakes, htaken⟩ | ⟨hby, -⟩
    · exact hsame
    · rw [htaken, hasks hname htakes]
      rfl
    · exact absurd hby.registers.1 hname

/-- Over any messages of a player, the identity stays as it is once the player has a
GrowID exactly when no login message that is decoded then asks for another name. -/
theorem along_keepsIdentity_iff (avatar : Avatar) (messages : List Message) :
    Along (untilFailure handle) (OnState KeepsIdentity) (.ok avatar) messages ↔
      Along (untilFailure handle) (OnState AsksOwnName) (.ok avatar) messages :=
  along_onState_iff (I := fun _ => True) messages trivial (fun _ _ _ _ _ _ => trivial)
    fun avatar message _ => keepsIdentity_iff avatar message

def registration : Message where
  globals := ⟨{}, some ⟨fun _ => false, true⟩⟩
  text := ascii ("action|dialog_return\ndialog_name|growid_apply\nlogon|Bob1\n" ++
    "password|12345678\nverify_password|12345678")

def login : Message where
  globals := ⟨{}, none⟩
  text := ascii "requestedName|eve\ncountry|us\nrid|1\ngame_version|4.5\nplatformID|0"

theorem not_along_keepsIdentity :
    ¬ Along (untilFailure handle) (OnState KeepsIdentity) (.ok newcomer) [registration, login] := by
  have hregistered : (handle newcomer registration).map (fun avatar => avatar.player.identity) =
      .ok ⟨ascii "bob1", ascii "12345678", ascii "Bob1"⟩ := by decide +kernel
  have hrenamed : (handle newcomer registration >>= fun avatar => handle avatar login).map
      (fun avatar => avatar.player.identity) =
      .ok ⟨ascii "bob1", ascii "12345678", ascii "eve"⟩ := by decide +kernel
  intro h
  obtain ⟨avatar, hfirst, hbob⟩ := map_eq_ok.mp hregistered
  rw [hfirst] at hrenamed
  obtain ⟨after, hsecond, heve⟩ := map_eq_ok.mp hrenamed
  have hname : avatar.player.m_detail.m_tankIDName = ascii "bob1" :=
    congrArg Identity.tankIDName hbob
  have hsame := h.2.1 avatar hfirst (hname ▸ by decide) after hsecond
  rw [hbob, heve] at hsame
  revert hsame
  decide

/-! ### What a registration stores -/

/-- A registration that is refused changes nothing, and one that succeeds stores what
was checked: the lower-cased name is the one `RegisterPlayer` looks up. -/
structure AllOrNothing (globals : Globals) (submission : Submission) (before after : Player) :
    Prop where
  nothing : (before.m_detail.m_tankIDName ≠ [] ∨ ∀ pTable, globals.playerTable = some pTable →
    (submission.registerPlayer pTable).m_result ≠ .success) → after = before
  all : before.m_detail.m_tankIDName = [] → ∀ pTable, globals.playerTable = some pTable →
    (submission.registerPlayer pTable).m_result = .success →
      after.m_detail.m_tankIDName = (Utils.toLowerCase submission.name).2 ∧
        after.m_detail.m_tankIDPass = submission.password ∧ after.m_rawName = submission.name

def WellRegistered (player : Player) : Prop :=
  (player.m_detail.m_tankIDName = [] ∧ player.m_detail.m_tankIDPass = []) ∨
    (3 ≤ player.m_detail.m_tankIDName.length ∧ player.m_detail.m_tankIDName.length ≤ 18 ∧
      (∀ ch ∈ player.m_detail.m_tankIDName, (97 ≤ ch ∧ ch ≤ 122) ∨ (48 ≤ ch ∧ ch ≤ 57)) ∧
      8 ≤ player.m_detail.m_tankIDPass.length ∧ player.m_detail.m_tankIDPass.length ≤ 24)

theorem allOrNothing {globals : Globals} {eventParser : TextParse} {avatar after : Avatar}
    (h : onDialogGrowIDApply globals eventParser avatar = .ok after) :
    AllOrNothing globals (Submission.ofLines eventParser.m_data) avatar.player after.player := by
  rcases onDialogGrowIDApply_player h with ⟨hnot, hsame⟩ | ⟨hregisters, hidentity⟩
  · refine ⟨fun _ => hsame, ?_⟩
    intro hname pTable htable hresult
    exact absurd ((registers_iff hname htable).mpr hresult) hnot
  · obtain ⟨hname, pTable, htable, hregistrable⟩ := hregisters
    refine ⟨?_, ?_⟩
    · intro hcase
      rcases hcase with hnamed | hrefused
      · exact absurd hname hnamed
      · exact absurd ((pTable.registerPlayer_success_iff _ _ _).mpr hregistrable)
          (hrefused pTable htable)
    · intro _ _ _ _
      have hlower := Utils.toLowerCase_snd _ hregistrable.valid_name
      refine ⟨?_, congrArg Identity.tankIDPass hidentity, congrArg Identity.rawName hidentity⟩
      exact (congrArg Identity.tankIDName hidentity).trans hlower.symm

theorem wellRegistered_of_registers {globals : Globals} {lines : List Bytes} {before : Player}
    (h : Registers globals before lines) {after : Player}
    (hidentity : after.identity = (Submission.ofLines lines).identity) : WellRegistered after := by
  obtain ⟨-, pTable, -, hregistrable⟩ := h
  have hname : after.m_detail.m_tankIDName = (Submission.ofLines lines).name.map StdNumber.toLower :=
    congrArg Identity.tankIDName hidentity
  have hpass : after.m_detail.m_tankIDPass = (Submission.ofLines lines).password :=
    congrArg Identity.tankIDPass hidentity
  obtain ⟨hmin, hmax⟩ := hregistrable.name_length
  rw [WellRegistered, hname, hpass, List.length_map]
  exact Or.inr ⟨hmin, hmax, Utils.mem_map_toLower hregistrable.valid_name,
    hregistrable.password_length⟩

theorem wellRegistered_handle {avatar after : Avatar} {message : Message}
    (h : WellRegistered avatar.player) (hafter : handle avatar message = .ok after) :
    WellRegistered after.player := by
  have hkept (hname : after.player.m_detail.m_tankIDName = avatar.player.m_detail.m_tankIDName)
      (hpass : after.player.m_detail.m_tankIDPass = avatar.player.m_detail.m_tankIDPass) :
      WellRegistered after.player := by
    rwa [WellRegistered, hname, hpass]
  rcases handleText_cases hafter with ⟨-, -, hsame⟩ | ⟨-, htaken⟩ | ⟨hby, hidentity⟩
  · exact hkept (congrArg Identity.tankIDName hsame) (congrArg Identity.tankIDPass hsame)
  · exact hkept (congrArg Identity.tankIDName htaken) (congrArg Identity.tankIDPass htaken)
  · exact wellRegistered_of_registers hby.registers hidentity

/-- Registration is all or nothing, and every state a player reaches has no account
or one that passed the checks. -/
theorem registration_stores_checked :
    (∀ globals eventParser avatar after,
      onDialogGrowIDApply globals eventParser avatar = .ok after →
        AllOrNothing globals (Submission.ofLines eventParser.m_data) avatar.player after.player) ∧
      ∀ items player messages after, Player.create items = .ok player →
        exec (untilFailure handle) (.ok { player }) messages = .ok after →
          WellRegistered after.player := by
  refine ⟨fun _ _ _ _ h => allOrNothing h, ?_⟩
  intro items player messages after hcreate hafter
  obtain rfl := Except.ok.inj hcreate
  have hstart : Reached (ε := Fault) (fun avatar : Avatar => WellRegistered avatar.player)
      (.ok newcomer) := by
    intro avatar havatar
    rw [← Except.ok.inj havatar]
    exact Or.inl ⟨rfl, rfl⟩
  exact reached_exec messages hstart (fun _ _ _ h hstep => wellRegistered_handle h hstep) after hafter

theorem registration_stores_checked_bob :
    ∃ after, onDialogGrowIDApply registration.globals (TextParse.parse registration.text) newcomer =
        .ok after ∧
      AllOrNothing registration.globals
        (Submission.ofLines (TextParse.parse registration.text).m_data) newcomer.player after.player ∧
      exec (untilFailure handle) (.ok newcomer) [registration] = .ok after ∧
      WellRegistered after.player := by
  obtain ⟨hone, hrun⟩ := registration_stores_checked
  obtain ⟨after, hafter⟩ : ∃ after, onDialogGrowIDApply registration.globals
      (TextParse.parse registration.text) newcomer = .ok after := ⟨_, rfl⟩
  have hrouted : exec (untilFailure handle) (.ok newcomer) [registration] =
      onDialogGrowIDApply registration.globals (TextParse.parse registration.text) newcomer := rfl
  have hexec := hrouted.trans hafter
  exact ⟨after, hafter, hone _ _ _ _ hafter, hexec, hrun {} _ [registration] after rfl hexec⟩

end Worker

end GrowServer
