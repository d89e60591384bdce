import GrowServer.Event.HandlerEffects

/-!
# Rejected logins (Event/TextEvents/RequestedName.hpp, Protocol/TankInfo.cpp)

The login handler stores the fields of a message one by one and requests the
disconnect at the first that is refused, or at the name itself when all of them are
stored. What it has stored by then stays with the player.
-/

namespace GrowServer
open LittleEndian Outcome

structure Player.SameLogin (after before : Player) : Prop where
  detail : after.m_detail = before.m_detail
  rawName : after.m_rawName = before.m_rawName

/-- What the handler stores of a login message is what the player has already. -/
structure NothingNew (player : Player) (text : Bytes) : Prop where
  detail : TankInfo.StoresNothingNew player.m_detail (TextParse.textLines text)
  rawName : TankInfo.Decodes (TextParse.textLines text) → requestedNameOf text = player.m_rawName

def NameRefused (name : Bytes) : Prop :=
  ¬ Utils.isValidUsername name ∨ name.length < 3 ∨ name.length > 10

/-- The text is rejected: handled to the end, the player is to be disconnected. -/
structure Rejects (globals : Globals) (player : Player) (text : Bytes) (after : Avatar) : Prop where
  handled : onRequestedName globals (TextParse.parse text) { player } = .ok after
  disconnects : Request.disconnectLater ∈ after.requests

section Rejected
variable {globals : Globals} {text : Bytes} {player : Player} {avatar after : Avatar}

theorem acceptName_rejects_iff (hnone : Request.disconnectLater ∉ avatar.requests)
    (h : acceptName avatar = .ok after) :
    Request.disconnectLater ∈ after.requests ↔
      NameRefused avatar.player.m_detail.m_requestedName := by
  by_cases hrefused : NameRefused avatar.player.m_detail.m_requestedName
  · obtain rfl := Except.ok.inj ((if_pos hrefused).symm.trans h)
    exact iff_of_true (List.mem_append_right _ (List.mem_singleton_self _)) hrefused
  · obtain ⟨vList, -, rfl⟩ := sendDialog_ok ((if_neg hrefused).symm.trans h)
    refine iff_of_false ?_ hrefused
    intro hmem
    rcases List.mem_append.mp hmem with hmem | hmem
    · exact hnone hmem
    · cases List.mem_singleton.mp hmem

/-- A handled login message of a player not logged on leaves the details as the
decoder leaves them, and replaces the raw name when all of the message was decoded. -/
theorem onRequestedName_ok (hflag : ¬ player.m_detail.isFlagOn clientFlagLoggedOn)
    (h : onRequestedName globals (TextParse.parse text) { player } = .ok after) :
    ∃ m_detail,
      (m_detail = player.m_detail ↔
        TankInfo.StoresNothingNew player.m_detail (TextParse.textLines text)) ∧
      ((¬ TankInfo.Decodes (TextParse.textLines text) ∧
          after = ({ player := { player with m_detail } } : Avatar).requestDisconnect) ∨
        (TankInfo.Decodes (TextParse.textLines text) ∧
          m_detail.m_requestedName = requestedNameOf text ∧
          acceptName { player := { player with m_detail } } = .ok after)) := by
  rw [onRequestedName, if_neg hflag] at h
  obtain ⟨⟨serialized, m_detail⟩, hserialize, h⟩ := bind_eq_ok.mp h
  have hdecodes := TankInfo.serialize_true_iff hserialize
  have hsame := TankInfo.serialize_same_iff hserialize
  rw [TextParse.parse_m_data] at hdecodes hsame
  refine ⟨m_detail, hsame, ?_⟩
  cases serialized with
  | false =>
    exact Or.inl ⟨fun hall => Bool.false_ne_true (hdecodes.mpr hall), (Except.ok.inj h).symm⟩
  | true =>
    have hname := ((TankInfo.serialize_ok hserialize).2 rfl).2
    rw [TextParse.parse_m_data] at hname
    exact Or.inr ⟨hdecodes.mp rfl, hname, h⟩

/-- A message that is handled to the end is rejected when it does not decode, and
when the name it asks for is refused. -/
theorem rejects_iff (h : onRequestedName globals (TextParse.parse text) { player } = .ok after) :
    Rejects globals player text after ↔
      ¬ player.m_detail.isFlagOn clientFlagLoggedOn ∧
        (TankInfo.Decodes (TextParse.textLines text) → NameRefused (requestedNameOf text)) := by
  have hnone (player : Player) : Request.disconnectLater ∉ ({ player } : Avatar).requests :=
    List.not_mem_nil
  by_cases hflag : player.m_detail.isFlagOn clientFlagLoggedOn
  · obtain rfl := Except.ok.inj ((if_pos hflag).symm.trans h)
    exact iff_of_false (fun hrejects => hnone player hrejects.disconnects) fun hoff => hoff.1 hflag
  obtain ⟨m_detail, -, ⟨hnot, rfl⟩ | ⟨hdecodes, hname, haccept⟩⟩ := onRequestedName_ok hflag h
  · exact iff_of_true ⟨h, List.mem_singleton_self _⟩ ⟨hflag, fun hall => absurd hall hnot⟩
  · have hrefused := acceptName_rejects_iff (hnone _) haccept
    rw [show NameRefused m_detail.m_requestedName ↔ NameRefused (requestedNameOf text) by
      rw [hname]] at hrefused
    exact ⟨fun hrejects => ⟨hflag, fun _ => hrefused.mp hrejects.disconnects⟩,
      fun hall => ⟨h, hrefused.mpr (hall.2 hdecodes)⟩⟩

/-- A rejected message leaves the player's login as it was exactly when it held
nothing new up to the field it was rejected for. -/
theorem rejects_sameLogin_iff (h : Rejects globals player text after) :
    after.player.SameLogin player ↔ NothingNew player text := by
  have hflag := ((rejects_iff h.handled).mp h).1
  obtain ⟨m_detail, hsame, hcases⟩ := onRequestedName_ok hflag h.handled
  rcases hcases with ⟨hnot, rfl⟩ | ⟨hdecodes, hname, haccept⟩
  · exact ⟨fun hlogin => ⟨hsame.mp hlogin.detail, fun hall => absurd hall hnot⟩,
      fun hnew => ⟨hsame.mpr hnew.detail, rfl⟩⟩
  · obtain ⟨accepted, haccepted, hplayer⟩ := acceptName_ok { player := { player with m_detail } }
    obtain rfl := Except.ok.inj (haccepted.symm.trans haccept)
    have hdetail : accepted.player.m_detail = m_detail := by rw [hplayer]
    have hraw : accepted.player.m_rawName = requestedNameOf text := by rw [hplayer, ← hname]
    constructor
    · intro hlogin
      exact ⟨hsame.mp (hdetail.symm.trans hlogin.detail), fun _ => hraw.symm.trans hlogin.rawName⟩
    · intro hnew
      exact ⟨hdetail.trans (hsame.mpr hnew.detail), hraw.trans (hnew.rawName hdecodes)⟩

end Rejected

def namedOnly : Avatar :=
  ({ player := { newcomer.player with
    m_detail := { newcomer.player.m_detail with m_requestedName := ascii "abc" } } } :
      Avatar).requestDisconnect

theorem rejects_namedOnly (globals : Globals) :
    Rejects globals newcomer.player (ascii "requestedName|abc") namedOnly :=
  ⟨rfl, List.mem_singleton_self _⟩

theorem rejects_sameLogin_iff_namedOnly :
    namedOnly.player.SameLogin newcomer.player ↔
      NothingNew newcomer.player (ascii "requestedName|abc") :=
  rejects_sameLogin_iff (rejects_namedOnly ⟨{}, none⟩)

theorem not_rejects_sameLogin :
    ¬ ∀ globals player text after, Rejects globals player text after →
      after.player.SameLogin player := by
  intro h
  have hdetail := (h _ _ _ _ (rejects_namedOnly ⟨{}, none⟩)).detail
  have hname : ascii "abc" = [] := congrArg TankInfo.m_requestedName hdetail
  exact absurd hname (by decide)

end GrowServer
