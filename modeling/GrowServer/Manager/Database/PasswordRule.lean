import GrowServer.Manager.Database.PlayerTable
import GrowServer.Player.PlayerDialog

/-!
# The password rule (Player/PlayerDialog/PlayerDialog.cpp, Manager/Database/Table/PlayerTable.cpp)

The registration dialog states a rule for passwords. `RegisterPlayer` checks the length
only, up to 24 where the rule says 18, and no kind of character.
-/

namespace GrowServer
open LittleEndian

def specialCharacters : Bytes := ascii "@#!$^&*.,"

structure HasEveryKind (password : Bytes) : Prop where
  letter : ∃ ch ∈ password, Utils.isLetter ch
  number : ∃ ch ∈ password, Utils.isDigit ch
  special : ∃ ch ∈ password, ch ∈ specialCharacters

/-- The rule as the dialog words it. -/
structure PasswordRule (password : Bytes) : Prop where
  length : 8 ≤ password.length ∧ password.length ≤ 18
  kinds : HasEveryKind password

example : [.fixed (ascii "add_textbox"),
    .fixed (ascii "Your `wpassword`` must contain`` 8 to 18 characters, 1 letter, " ++
      ascii "1 number`` and`` 1 special character: " ++ specialCharacters ++ ascii "``"),
    .fixed []] ∈ PlayerDialog.registrationTemplate :=
  List.mem_of_getElem? (i := 9) rfl

namespace PlayerTable

def empty : PlayerTable := ⟨fun _ => false, true⟩

theorem registrable_empty {password : Bytes} (h : 8 ≤ password.length ∧ password.length ≤ 24) :
    empty.Registrable (ascii "abc") password password where
  password_length := h
  verified := rfl
  valid_name := by decide
  name_length := by decide
  name_free := Bool.false_ne_true
  connected := rfl

/-- A registration obeys the rule exactly when it is turned away or its password has the
kinds of characters and the length the checks do not ask for. Every password they let
through without them is one that some registration gets accepted. -/
theorem registerPlayer_obeysRule_iff (this : PlayerTable) (name password verifyPassword : Bytes) :
    (((this.registerPlayer name password verifyPassword).m_result = .success →
        PasswordRule password) ↔
      (this.Registrable name password verifyPassword →
        password.length ≤ 18 ∧ HasEveryKind password)) ∧
    ((∀ (pTable : PlayerTable) (name verifyPassword : Bytes),
        (pTable.registerPlayer name password verifyPassword).m_result = .success →
          PasswordRule password) ↔
      (8 ≤ password.length ∧ password.length ≤ 24 →
        password.length ≤ 18 ∧ HasEveryKind password)) := by
  have hrule (hlong : 8 ≤ password.length) :
      PasswordRule password ↔ password.length ≤ 18 ∧ HasEveryKind password :=
    ⟨fun h => ⟨h.length.2, h.kinds⟩, fun h => ⟨⟨hlong, h.1⟩, h.2⟩⟩
  refine ⟨?_, ?_⟩
  · rw [registerPlayer_success_iff]
    exact forall_congr' fun h => hrule h.password_length.1
  · constructor
    · intro h hlength
      exact (hrule hlength.1).mp
        (h empty _ _ ((registerPlayer_success_iff _ _ _ _).mpr (registrable_empty hlength)))
    · intro h pTable name verifyPassword hsuccess
      have hlength := ((registerPlayer_success_iff _ _ _ _).mp hsuccess).password_length
      exact (hrule hlength.1).mpr (h hlength)

theorem not_registerPlayer_obeysRule :
    ¬ ∀ (this : PlayerTable) (name password verifyPassword : Bytes),
      (this.registerPlayer name password verifyPassword).m_result = .success →
        PasswordRule password := by
  intro h
  have hnumber := (h empty (ascii "abc") (ascii "password") (ascii "password") (by decide)).kinds.number
  exact absurd hnumber (by decide)

end PlayerTable

end GrowServer
