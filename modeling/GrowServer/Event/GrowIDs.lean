import GrowServer.Event.Identity
import GrowServer.Manager.Database.PlayersTable
import Mathlib.Logic.Function.Basic

/-!
# GrowIDs across players (Event/Dialogs/AccountDialog.hpp, PlayerTable.cpp)

The players of the server and the table their registrations are checked against. A
registration that succeeds is answered and remembered in the player, and not written
to the table: the call of `Insert` in the handler is commented out.
-/

namespace GrowServer
open LittleEndian Outcome RunLogic

/-- The players, the table, and the names registrations have succeeded for. -/
structure Accounts where
  table : PlayersTable
  players : ℕ → Avatar
  granted : List Bytes := []

/-- A text of one of the players, and whether the connection of the database is valid
while it is handled. -/
structure PlayerText where
  player : ℕ
  text : Bytes
  isValid : Bool := true

namespace Accounts

def start (table : PlayersTable) : Accounts := { table, players := fun _ => newcomer }

def growID (this : Accounts) (player : ℕ) : Bytes :=
  (this.players player).player.m_detail.m_tankIDName

section Step
variable (collation : Collation) (items : ItemManager)

def globals (this : Accounts) (isValid : Bool) : Globals :=
  ⟨items, some (this.table.answers collation isValid)⟩

def handle (this : Accounts) (message : PlayerText) : Except Fault Accounts := do
  let avatar := this.players message.player
  let after ← handleText (globals collation items this message.isValid) message.text avatar
  return { this with
    players := Function.update this.players message.player after
    granted :=
      if after.player.m_detail.m_tankIDName = avatar.player.m_detail.m_tankIDName then this.granted
      else after.player.m_detail.m_tankIDName :: this.granted }

def Grants (this : Accounts) (message : PlayerText) : Prop :=
  RegistersBy (globals collation items this message.isValid)
    (this.players message.player).player message.text

end Step

/-- No two players have the same GrowID, and no name was granted twice. -/
structure Unique (this : Accounts) : Prop where
  growIDs : ∀ p q, p ≠ q → this.growID p ≠ [] → this.growID p ≠ this.growID q
  granted : this.granted.Nodup

structure Distinct (this : Accounts) : Prop where
  unique : this.Unique
  mem_granted : ∀ name, name ∈ this.granted ↔ name ≠ [] ∧ ∃ p, this.growID p = name

section Step
variable {collation : Collation} {items : ItemManager} {this after : Accounts}
  {message : PlayerText}

theorem growID_update (this : Accounts) (player : ℕ) (avatar : Avatar) (granted : List Bytes) :
    Accounts.growID { this with players := Function.update this.players player avatar, granted } =
      Function.update this.growID player avatar.player.m_detail.m_tankIDName := by
  funext p
  exact Function.apply_update (fun _ avatar => avatar.player.m_detail.m_tankIDName) this.players
    player avatar p

theorem Grants.name_ne_nil (h : Grants collation items this message) :
    (submissionOf message.text).identity.tankIDName ≠ [] := by
  obtain ⟨-, pTable, -, hregistrable⟩ := h.registers
  have hmin : 3 ≤ (submissionOf message.text).name.length := hregistrable.name_length.1
  intro hnil
  rw [List.map_eq_nil_iff.mp hnil] at hmin
  exact absurd hmin (by decide)

/-- A message that is handled to the end grants the submitted name, lower-cased, to a
player without one, or leaves all GrowIDs as they are. -/
theorem handle_cases (h : handle collation items this message = .ok after) :
    (¬ Grants collation items this message ∧ after.growID = this.growID ∧
        after.granted = this.granted) ∨
      (Grants collation items this message ∧ this.growID message.player = [] ∧
        (submissionOf message.text).identity.tankIDName ≠ [] ∧
        after.growID = Function.update this.growID message.player
          (submissionOf message.text).identity.tankIDName ∧
        after.granted = (submissionOf message.text).identity.tankIDName :: this.granted) := by
  obtain ⟨avatar, havatar, hafter⟩ := bind_eq_ok.mp h
  obtain rfl := Except.ok.inj hafter
  have hkept (hsame : avatar.player.m_detail.m_tankIDName = this.growID message.player)
      (granted : List Bytes) :
      Accounts.growID { this with
        players := Function.update this.players message.player avatar, granted } = this.growID := by
    rw [growID_update, hsame, Function.update_eq_self]
  rcases handleText_cases havatar with ⟨-, hnot, hsame⟩ | ⟨htakes, htaken⟩ | ⟨hby, hidentity⟩
  · have hname := congrArg Identity.tankIDName hsame
    exact Or.inl ⟨hnot, hkept hname _, if_pos hname⟩
  · have hname := congrArg Identity.tankIDName htaken
    have hnot : ¬ Grants collation items this message := fun hby =>
      absurd (hby.event.symm.trans htakes.event) (by decide)
    exact Or.inl ⟨hnot, hkept hname _, if_pos hname⟩
  · have hname := congrArg Identity.tankIDName hidentity
    have hunnamed : this.growID message.player = [] := hby.registers.1
    have hne : (submissionOf message.text).identity.tankIDName ≠ [] := Grants.name_ne_nil hby
    have hchanged : avatar.player.m_detail.m_tankIDName ≠ this.growID message.player := by
      rw [hunnamed]
      exact fun hnil => hne (hname.symm.trans hnil)
    refine Or.inr ⟨hby, hunnamed, hne, ?_, ?_⟩
    · rw [growID_update]
      exact congrArg (Function.update this.growID message.player) hname
    · exact (if_neg hchanged).trans (congrArg (· :: this.granted) hname)

theorem unique_grant (h : Distinct this) {player : ℕ} {name : Bytes} (hname : name ≠ [])
    (hgrowID : after.growID = Function.update this.growID player name)
    (hgranted : after.granted = name :: this.granted) :
    after.Unique ↔ name ∉ this.granted := by
  constructor
  · intro hunique
    have hnodup := hunique.granted
    rw [hgranted] at hnodup
    exact (List.nodup_cons.mp hnodup).1
  · intro hfree
    have hother (q : ℕ) : this.growID q ≠ name := fun hq =>
      hfree ((h.mem_granted name).mpr ⟨hname, q, hq⟩)
    refine ⟨?_, ?_⟩
    · intro p q hpq hp
      rw [hgrowID] at hp ⊢
      by_cases hpPlayer : p = player
      · subst hpPlayer
        rw [Function.update_self, Function.update_of_ne hpq.symm]
        exact (hother q).symm
      rw [Function.update_of_ne hpPlayer] at hp ⊢
      by_cases hqPlayer : q = player
      · rw [hqPlayer, Function.update_self]
        exact hother p
      · rw [Function.update_of_ne hqPlayer]
        exact h.unique.growIDs p q hpq hp
    · rw [hgranted]
      exact List.nodup_cons.mpr ⟨hfree, h.unique.granted⟩

theorem mem_granted_grant (h : Distinct this) {player : ℕ} {name : Bytes} (hname : name ≠ [])
    (hunnamed : this.growID player = [])
    (hgrowID : after.growID = Function.update this.growID player name)
    (hgranted : after.granted = name :: this.granted) (other : Bytes) :
    other ∈ after.granted ↔ other ≠ [] ∧ ∃ p, after.growID p = other := by
  rw [hgranted, hgrowID, List.mem_cons, h.mem_granted]
  constructor
  · intro hcase
    rcases hcase with rfl | ⟨hother, p, hp⟩
    · exact ⟨hname, player, Function.update_self ..⟩
    · refine ⟨hother, p, ?_⟩
      have hne : p ≠ player := by
        intro heq
        rw [heq, hunnamed] at hp
        exact hother hp.symm
      rw [Function.update_of_ne hne, hp]
  · intro hheld
    obtain ⟨hother, p, hp⟩ := hheld
    by_cases heq : p = player
    · rw [heq, Function.update_self] at hp
      exact Or.inl hp.symm
    · rw [Function.update_of_ne heq] at hp
      exact Or.inr ⟨hother, p, hp⟩

end Step

section Run
variable (collation : Collation) (items : ItemManager)

def KeepsUnique (this : Accounts) (message : PlayerText) : Prop :=
  ∀ after, handle collation items this message = .ok after → after.Unique

/-- A registration that passes the checks is for a name that no player of the run has
registered, in whatever letter case. -/
def GrantsFreeName (this : Accounts) (message : PlayerText) : Prop :=
  ∀ after, handle collation items this message = .ok after → Grants collation items this message →
    (submissionOf message.text).identity.tankIDName ∉ this.granted

variable {collation items}

theorem keepsUnique_iff {this : Accounts} (h : Distinct this) (message : PlayerText) :
    KeepsUnique collation items this message ↔ GrantsFreeName collation items this message := by
  refine forall₂_congr fun after hafter => ?_
  rcases handle_cases hafter with ⟨hnot, hgrowID, hgranted⟩ |
    ⟨hgrants, -, hname, hgrowID, hgranted⟩
  · refine iff_of_true ⟨?_, ?_⟩ fun hgrants => absurd hgrants hnot
    · rw [hgrowID]
      exact h.unique.growIDs
    · rw [hgranted]
      exact h.unique.granted
  · rw [unique_grant h hname hgrowID hgranted]
    exact ⟨fun hfree _ => hfree, fun hfree => hfree hgrants⟩

theorem distinct_handle {this after : Accounts} (h : Distinct this) {message : PlayerText}
    (hfree : GrantsFreeName collation items this message)
    (hafter : handle collation items this message = .ok after) : Distinct after := by
  refine ⟨(keepsUnique_iff h message).mpr hfree after hafter, ?_⟩
  rcases handle_cases hafter with ⟨-, hgrowID, hgranted⟩ |
    ⟨-, hunnamed, hname, hgrowID, hgranted⟩
  · intro name
    rw [hgranted, hgrowID]
    exact h.mem_granted name
  · exact mem_granted_grant h hname hunnamed hgrowID hgranted

theorem distinct_start (table : PlayersTable) : Distinct (start table) where
  unique := ⟨fun _ _ _ hname => absurd rfl hname, List.nodup_nil⟩
  mem_granted := by
    intro name
    refine iff_of_false List.not_mem_nil ?_
    intro hheld
    obtain ⟨hname, p, rfl⟩ := hheld
    exact hname rfl

/-- For every table and every order of the players' messages, GrowIDs stay unique
exactly when no registration that passes the checks is for a name granted before. -/
theorem along_keepsUnique_iff (collation : Collation) (items : ItemManager) (table : PlayersTable)
    (messages : List PlayerText) :
    Along (untilFailure (handle collation items)) (OnState (KeepsUnique collation items))
        (.ok (start table)) messages ↔
      Along (untilFailure (handle collation items)) (OnState (GrantsFreeName collation items))
        (.ok (start table)) messages :=
  along_onState_iff messages (distinct_start table)
    (fun _ _ _ h hfree hafter => distinct_handle h hfree hafter)
    fun _ message h => keepsUnique_iff h message

def otherRegistration : Bytes :=
  ascii ("action|dialog_return\ndialog_name|growid_apply\nlogon|BOB1\n" ++
    "password|abcdefgh\nverify_password|abcdefgh")

theorem not_along_keepsUnique :
    ¬ Along (untilFailure (handle (· == ·) {})) (OnState (KeepsUnique (· == ·) {}))
      (.ok (start {})) [⟨0, Worker.registration.text, true⟩, ⟨1, otherRegistration, true⟩] := by
  have hboth : (handle (· == ·) {} (start {}) ⟨0, Worker.registration.text, true⟩ >>= fun this =>
      handle (· == ·) {} this ⟨1, otherRegistration, true⟩).map Accounts.granted =
        .ok [ascii "bob1", ascii "bob1"] := by decide +kernel
  intro h
  obtain ⟨after, hafter, hgranted⟩ := map_eq_ok.mp hboth
  obtain ⟨this, hfirst, hsecond⟩ := bind_eq_ok.mp hafter
  have hunique := h.2.1 this hfirst after hsecond
  have hnodup := hunique.granted
  rw [hgranted] at hnodup
  revert hnodup
  decide

end Run

end Accounts

end GrowServer
