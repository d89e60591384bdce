import GrowServer.Event.PlayerRuns
import GrowServer.Event.Replies

/-!
# The confirmation of an account (Event/Dialogs/AccountDialog.hpp, Packet/VariantFunction.hpp)

The call `SetHasGrowID` tells of an account. Over all texts of a player, it stands for the
account the server has stored of it. Its peer is always the `Player` object cast to one.
-/

namespace GrowServer
open LittleEndian Outcome RunLogic PlayerDialog
open StdNumber (toLower)

/-- A call of `SetHasGrowID`: the peer it is given, the name and the password. -/
def confirmationOf : Request → Option (PeerArgument × Bytes × Bytes)
  | .variantList peer
      ⟨_, _, [.string function, .int _, .string tankIDName, .string tankIDPass]⟩ =>
    if function = ascii "SetHasGrowID" then some (peer, tankIDName, tankIDPass) else none
  | _ => none

def confirmations (requests : List Request) : List (PeerArgument × Bytes × Bytes) :=
  requests.filterMap confirmationOf

theorem confirmations_append (requests replies : List Request) :
    confirmations (requests ++ replies) = confirmations requests ++ confirmations replies :=
  List.filterMap_append

theorem confirmations_registeredReplies (name password : Bytes) :
    confirmations (registeredReplies name password) = [(.pAvatar, name, password)] := by
  obtain ⟨sound, -, heq⟩ := registeredReplies_eq name password
  have hcall : confirmationOf (.variantList .pAvatar ⟨0, -1, [.string (ascii "SetHasGrowID"),
      .int 1, .string name, .string password]⟩) = some (.pAvatar, name, password) := by
    rw [confirmationOf, if_pos rfl]
  rw [heq, confirmations, List.filterMap_cons_none rfl, List.filterMap_cons_some hcall]
  rfl

section Replies
variable {globals : Globals} {text : Bytes} {avatar after : Avatar} {replies : List Request}

/-- Without a registration, no call confirms an account. -/
theorem confirmations_replies (h : Replies globals text avatar after replies) :
    confirmations replies = [] ∨ Registers globals avatar.player (TextParse.textLines text) ∧
      applyGrowID globals (submissionOf text).name (submissionOf text).password avatar =
        .ok after := by
  cases h with
  | silent => exact Or.inl rfl
  | logged hunhandled => exact Or.inl rfl
  | disconnected => exact Or.inl rfl
  | turnedAway => exact Or.inl rfl
  | asked hsent =>
    obtain ⟨db, hdb⟩ : ∃ db, PlayerDialog.send .registration {} = .ok (sendData 0 db) := ⟨_, rfl⟩
    obtain rfl := Except.ok.inj (hsent.symm.trans hdb)
    exact Or.inl rfl
  | refused hlength => exact Or.inl rfl
  | registered hregisters happly => exact Or.inr ⟨hregisters, happly⟩

end Replies

/-- Before the account there is no confirmation. With it there is one, given the `Player`
object for its peer, and it tells the name up to its case, and the password. -/
structure Confirmed (avatar : Avatar) : Prop where
  unnamed : avatar.player.m_detail.m_tankIDName = [] → confirmations avatar.requests = []
  named : avatar.player.m_detail.m_tankIDName ≠ [] → ∃ name : Bytes,
    name.map toLower = avatar.player.m_detail.m_tankIDName ∧
      confirmations avatar.requests = [(.pAvatar, name, avatar.player.m_detail.m_tankIDPass)]

theorem confirmed_of_same {avatar after : Avatar} (h : Confirmed avatar)
    (haccount : TankInfo.SameAccount after.player.m_detail avatar.player.m_detail)
    (hsame : confirmations after.requests = confirmations avatar.requests) : Confirmed after := by
  obtain ⟨hname, hpass⟩ := haccount
  refine ⟨?_, ?_⟩
  · intro hnil
    rw [hsame]
    exact h.unnamed (hname ▸ hnil)
  · intro hne
    rw [hsame, hname, hpass]
    exact h.named (hname ▸ hne)

theorem confirmed_registered {globals : Globals} {text : Bytes} {avatar after : Avatar}
    (h : Confirmed avatar) (hregisters : Registers globals avatar.player (TextParse.textLines text))
    (happly : applyGrowID globals (submissionOf text).name (submissionOf text).password avatar =
      .ok after) : Confirmed after := by
  obtain ⟨hname, hpassword⟩ := fits_of_registers hregisters
  obtain ⟨hdetail, -⟩ := applyGrowID_detail happly hname hpassword
  have hconfirmations : confirmations after.requests =
      [(.pAvatar, (submissionOf text).name, (submissionOf text).password)] := by
    rw [applyGrowID_replies happly hname hpassword, confirmations_append,
      h.unnamed hregisters.1, confirmations_registeredReplies]
    rfl
  refine ⟨?_, ?_⟩
  · intro hnil
    rw [hdetail] at hnil
    exact absurd hnil (TankInfo.ne_nil_of_fits hname)
  · intro _
    rw [hconfirmations, hdetail]
    exact ⟨_, rfl, rfl⟩

namespace Worker

theorem confirmed_step {avatar after : Avatar} {message : Message} (h : Confirmed avatar)
    (hstep : handle avatar message = .ok after) : Confirmed after := by
  obtain ⟨replies, hreplies, hrequests⟩ := handleText_replies hstep
  have hsent : confirmations after.requests =
      confirmations avatar.requests ++ confirmations replies := by
    rw [hrequests, confirmations_append]
  cases handleText_effect hstep with
  | registered hby happly => exact confirmed_registered h hby.registers happly
  | kept hkept =>
    rcases confirmations_replies hreplies with hnone | ⟨hregisters, happly⟩
    · exact confirmed_of_same h (hkept ▸ ⟨rfl, rfl⟩) (by rw [hsent, hnone, List.append_nil])
    · exact confirmed_registered h hregisters happly
  | decoded complete det hserialize hplayer =>
    rcases confirmations_replies hreplies with hnone | ⟨hregisters, happly⟩
    · have haccount := (TankInfo.serialize_decodedFrom hserialize).account
      exact confirmed_of_same h (hplayer ▸ haccount) (by rw [hsent, hnone, List.append_nil])
    · exact confirmed_registered h hregisters happly

/-- Over all texts of a player, the call is made exactly once and exactly when the player has
an account; and what it tells stays what is stored. -/
theorem account_confirmed {items : ItemManager} {player : Player} {messages : List Message}
    {after : Avatar} (hcreate : Player.create items = .ok player)
    (hafter : exec (untilFailure handle) (.ok { player }) messages = .ok after) :
    Confirmed after := by
  obtain rfl := Except.ok.inj hcreate
  have hstart : Confirmed newcomer := ⟨fun _ => rfl, fun hne => absurd rfl hne⟩
  have hreached : Reached (ε := Fault) Confirmed (.ok newcomer) := by
    intro avatar havatar
    rwa [← Except.ok.inj havatar]
  exact reached_exec messages hreached (fun _ _ _ h hstep => confirmed_step h hstep) after hafter

theorem account_confirmed_renamed :
    ∃ after, Player.create {} = .ok newcomer.player ∧
      exec (untilFailure handle) (.ok newcomer) [login, registration, registration, login] =
        .ok after ∧ Confirmed after := by
  obtain ⟨after, hafter⟩ : ∃ after, exec (untilFailure handle) (.ok newcomer)
      [login, registration, registration, login] = .ok after := ⟨_, rfl⟩
  have hcreate : Player.create {} = .ok newcomer.player := rfl
  exact ⟨after, hcreate, hafter, account_confirmed hcreate hafter⟩

end Worker

end GrowServer
