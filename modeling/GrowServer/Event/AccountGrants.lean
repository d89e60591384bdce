import GrowServer.Event.Identity

/-!
# Where an account comes from (Event/Dialogs/AccountDialog.hpp)

A player has the account that the first registration it was granted has stored, and none
before. No other text makes an account, and none takes it away or changes it.
-/

namespace GrowServer
open LittleEndian RunLogic
open StdNumber (toLower)

/-- The name and the password of the account, once the player has one. -/
def Player.account (this : Player) : Option (Bytes × Bytes) :=
  if this.m_detail.m_tankIDName = [] then none
  else some (this.m_detail.m_tankIDName, this.m_detail.m_tankIDPass)

theorem Player.account_eq_none {player : Player} (h : player.m_detail.m_tankIDName = []) :
    player.account = none := if_pos h

theorem Player.account_congr {player other : Player}
    (hname : player.m_detail.m_tankIDName = other.m_detail.m_tankIDName)
    (hpass : player.m_detail.m_tankIDPass = other.m_detail.m_tankIDPass) :
    player.account = other.account := by
  rw [account, account, hname, hpass]

theorem Player.account_of_submission {player : Player} {submission : Submission}
    (h : player.identity = submission.identity) (hname : submission.name ≠ []) :
    player.account = some (submission.name.map toLower, submission.password) := by
  have hstored : player.m_detail.m_tankIDName = submission.name.map toLower :=
    congrArg Identity.tankIDName h
  have hpass : player.m_detail.m_tankIDPass = submission.password :=
    congrArg Identity.tankIDPass h
  rw [account, hstored, hpass, if_neg]
  intro hnil
  exact hname (List.map_eq_nil_iff.mp hnil)

namespace Worker

/-- The message is a registration that passes every check, as the database answers while it
is handled, of a player without an account; and this is the account that it asks for. -/
def Grants (avatar : Avatar) (message : Message) (account : Bytes × Bytes) : Prop :=
  RegistersBy message.globals avatar.player message.text ∧
    account = ((submissionOf message.text).name.map toLower, (submissionOf message.text).password)

theorem name_ne_nil_of_registersBy {globals : Globals} {player : Player} {text : Bytes}
    (h : RegistersBy globals player text) : (submissionOf text).name ≠ [] := by
  obtain ⟨-, pTable, -, hregistrable⟩ := h.registers
  have hlength : 3 ≤ (submissionOf text).name.length := hregistrable.name_length.1
  intro hnil
  rw [hnil] at hlength
  exact absurd hlength (by decide)

/-- What a text does to the account: a registration that is granted fills it. -/
theorem fillsOnce_account :
    FillsOnce handle (fun avatar : Avatar => avatar.player.account) Grants := by
  intro avatar message after hstep account
  have hkept (hsame : after.player.account = avatar.player.account)
      (hnot : ¬ RegistersBy message.globals avatar.player message.text) :
      after.player.account = some account ↔ avatar.player.account = some account ∨
        avatar.player.account = none ∧ Grants avatar message account := by
    rw [hsame, or_iff_left]
    exact fun hgrants => hnot hgrants.2.1
  rcases handleText_cases hstep with ⟨-, hnot, hsame⟩ | ⟨htakes, htaken⟩ | ⟨hby, hidentity⟩
  · exact hkept (Player.account_congr (congrArg Identity.tankIDName hsame)
      (congrArg Identity.tankIDPass hsame)) hnot
  · refine hkept (Player.account_congr (congrArg Identity.tankIDName htaken)
      (congrArg Identity.tankIDPass htaken)) ?_
    intro hby
    exact absurd (htakes.event.symm.trans hby.event) (by decide)
  · have hbefore : avatar.player.account = none := Player.account_eq_none hby.registers.1
    have hafter := Player.account_of_submission hidentity (name_ne_nil_of_registersBy hby)
    show after.player.account = some account ↔ avatar.player.account = some account ∨ _
    rw [hafter, hbefore]
    constructor
    · intro hsome
      exact Or.inr ⟨hbefore, hby, (Option.some.inj hsome).symm⟩
    · intro hgrants
      rcases hgrants with hsome | ⟨-, -, hsame⟩
      · cases hsome
      · rw [hsame]

/-- After a run of a new player, its account is that of the first message that was granted. -/
theorem account_iff {messages : List Message} {after : Avatar}
    (hafter : exec (untilFailure handle) (.ok newcomer) messages = .ok after)
    (account : Bytes × Bytes) :
    after.player.account = some account ↔ ∃ before message rest avatar,
      messages = before ++ message :: rest ∧
        exec (untilFailure handle) (.ok newcomer) before = .ok avatar ∧
        avatar.player.account = none ∧ Grants avatar message account := by
  rw [fillsOnce_account.exec_iff hafter account, or_iff_right]
  intro hsome
  cases hsome

end Worker

end GrowServer
