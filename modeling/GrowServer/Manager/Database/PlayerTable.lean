import GrowServer.Lib.Template
import GrowServer.Utils.MiscUtils

/-!
# PlayerTable (Manager/Database/Table/PlayerTable.cpp)

The checks a registration passes before an account is created. The database is
taken as answering: whether an account of a name exists, and whether the
connection is valid.
-/

namespace GrowServer
open LittleEndian
open StdNumber (toLower)

namespace PlayerRegistration

inductive Result where
  | success
  | existGrowId
  | invalidGrowId
  | invalidPassword
  | invalidEmailOrDiscord
  | invalidGrowIdLength
  | invalidPasswordLength
  | mismatchVerifyPassword
  | badConnection
  deriving DecidableEq, Repr

end PlayerRegistration

structure PlayerRegistration where
  m_result : PlayerRegistration.Result
  m_data : Bytes
  deriving DecidableEq, Repr

structure PlayerTable where
  isAccountExist : Bytes → Bool
  isValid : Bool

namespace PlayerTable

def registerPlayer (this : PlayerTable) (name password verifyPassword : Bytes) :
    PlayerRegistration :=
  if password.length < 8 ∨ password.length > 24 then
    { m_result := .invalidPasswordLength
      m_data := ascii "`4Oops!``  Your password must be between `$8`` and `$24`` characters long." }
  else if verifyPassword ≠ password then
    { m_result := .mismatchVerifyPassword
      m_data := ascii "`4Oops!``  Passwords don't match.  Try again." }
  else
    let (ok, lowerCase) := Utils.toLowerCase name
    if ¬ ok then
      { m_result := .invalidGrowId
        m_data := ascii "`4Oops!``  the name is includes invalid characters." }
    else if lowerCase.length < 3 ∨ lowerCase.length > 18 then
      { m_result := .invalidGrowIdLength
        m_data := ascii
          "`4Oops!``  Your `wGrowID`` must be between `$3`` and `$18`` characters long." }
    else if this.isAccountExist lowerCase then
      { m_result := .existGrowId
        m_data := ascii "`4Oops!``  The name `w" ++ name ++ ascii
          "`` is so cool someone else has already taken it.  Please choose a different name." }
    else if ¬ this.isValid then
      { m_result := .badConnection
        m_data := ascii
          "`4Oops!``  Server's database had bad connection, please try again." }
    else { m_result := .success, m_data := [] }

structure Registrable (this : PlayerTable) (name password verifyPassword : Bytes) : Prop where
  password_length : 8 ≤ password.length ∧ password.length ≤ 24
  verified : verifyPassword = password
  valid_name : Utils.isValidUsername name
  name_length : 3 ≤ name.length ∧ name.length ≤ 18
  name_free : ¬ this.isAccountExist (name.map toLower)
  connected : this.isValid

theorem clean_of_isValidUsername {name : Bytes} (h : Utils.isValidUsername name) :
    Template.Clean 10 124 name :=
  ⟨Utils.not_mem_of_isValidUsername h _ (by decide), Utils.not_mem_of_isValidUsername h _ (by decide)⟩

/-- Every check turns away what is not registrable, and says so on one line and without
a bar. -/
theorem registerPlayer_cases (this : PlayerTable) (name password verifyPassword : Bytes) :
    (this.Registrable name password verifyPassword ∧
        (this.registerPlayer name password verifyPassword).m_result = .success) ∨
      (¬ this.Registrable name password verifyPassword ∧
        (this.registerPlayer name password verifyPassword).m_result ≠ .success ∧
        (this.registerPlayer name password verifyPassword).m_data ≠ [] ∧
        Template.Clean 10 124 (this.registerPlayer name password verifyPassword).m_data) := by
  have hfst := Utils.toLowerCase_fst name
  have hsnd := Utils.toLowerCase_snd name
  unfold registerPlayer
  split
  · rename_i hpass
    right
    refine ⟨?_, by decide, by decide +kernel⟩
    intro h
    have hlength := h.password_length
    omega
  rename_i hpass
  split
  · rename_i hverify
    exact Or.inr ⟨fun h => hverify h.verified, by decide, by decide +kernel⟩
  rename_i hverify
  split
  rename_i ok lowerCase hlower
  rw [hlower] at hfst hsnd
  split
  · rename_i hok
    right
    refine ⟨?_, by decide, by decide +kernel⟩
    intro h
    exact hok (hfst.trans h.valid_name)
  rename_i hok
  have hvalid : Utils.isValidUsername name := by
    rw [← hfst]
    exact not_not.mp hok
  have hlowered : lowerCase = name.map toLower := hsnd hvalid
  have hlength : lowerCase.length = name.length := by
    rw [hlowered, List.length_map]
  split
  · rename_i hlen
    right
    refine ⟨?_, by decide, by decide +kernel⟩
    intro h
    have hname := h.name_length
    omega
  rename_i hlen
  split
  · -- the only refusal that repeats what was submitted, which is a valid name
    rename_i hexist
    right
    have hbefore : Template.Clean 10 124 (ascii "`4Oops!``  The name `w") := by decide +kernel
    have hafter : Template.Clean 10 124 (ascii
        "`` is so cool someone else has already taken it.  Please choose a different name.") := by
      decide +kernel
    refine ⟨fun h => h.name_free (hlowered ▸ hexist), ?_, by simp [ascii],
      (hbefore.append (clean_of_isValidUsername hvalid)).append hafter⟩
    intro hresult
    cases hresult
  rename_i hexist
  split
  · rename_i hconn
    exact Or.inr ⟨fun h => hconn h.connected, by decide, by decide +kernel⟩
  · rename_i hconn
    left
    refine ⟨⟨by omega, not_not.mp hverify, hvalid, by omega, ?_, not_not.mp hconn⟩, rfl⟩
    rwa [← hlowered]

theorem registerPlayer_success_iff (this : PlayerTable) (name password verifyPassword : Bytes) :
    (this.registerPlayer name password verifyPassword).m_result = .success ↔
      this.Registrable name password verifyPassword := by
  rcases this.registerPlayer_cases name password verifyPassword with ⟨h, hsuccess⟩ | ⟨h, hrefused, -⟩
  · exact iff_of_true hsuccess h
  · exact iff_of_false hrefused h

end PlayerTable

end GrowServer
