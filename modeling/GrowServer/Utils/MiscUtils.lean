import GrowServer.Utils.StdNumber

/-!
# Utils (Utils/MiscUtils.hpp)

The two checks of player names: ASCII letters and digits, and at least one of them.
-/

namespace GrowServer
open LittleEndian
open StdNumber (toLower)

namespace Utils

def isDigit (ch : UInt8) : Bool := 48 ≤ ch && ch ≤ 57
def isLetter (ch : UInt8) : Bool := (97 ≤ ch && ch ≤ 122) || (65 ≤ ch && ch ≤ 90)

def isValidUsernameLoop : Bytes → Bool
  | [] => true
  | ch :: username =>
    if ¬ isDigit ch ∧ ¬ isLetter ch then false else isValidUsernameLoop username

def isValidUsername (username : Bytes) : Bool :=
  if username.isEmpty then false else isValidUsernameLoop username

def toLowerCaseLoop (underscore : Bool) : Bytes → Bool × Bytes
  | [] => (true, [])
  | ch :: data =>
    if isLetter ch then
      let (ok, data) := toLowerCaseLoop underscore data
      (ok, toLower ch :: data)
    else if ¬ isDigit ch ∧ ¬ (underscore ∧ ch = 95) then (false, ch :: data)
    else
      let (ok, data) := toLowerCaseLoop underscore data
      (ok, ch :: data)

def toLowerCase (data : Bytes) (underscore : Bool := false) : Bool × Bytes :=
  if data.isEmpty then (false, data) else toLowerCaseLoop underscore data

theorem toLower_of_not_letter {ch : UInt8} (h : isLetter ch = false) : toLower ch = ch := by
  unfold toLower
  rw [if_neg]
  intro hupper
  simp [isLetter, hupper.1, hupper.2] at h

theorem toLowerCaseLoop_ok (data : Bytes) (h : isValidUsernameLoop data) :
    toLowerCaseLoop false data = (true, data.map toLower) := by
  induction data with
  | nil => rfl
  | cons ch data ih =>
    rw [isValidUsernameLoop] at h
    split at h
    · cases h
    · rename_i hch
      rw [toLowerCaseLoop, ih h, List.map_cons]
      cases hletter : isLetter ch with
      | true => rfl
      | false =>
        have hdigit : isDigit ch = true := by
          by_contra hnot
          exact hch ⟨hnot, by rw [hletter]; nofun⟩
        simp [hdigit, toLower_of_not_letter hletter]

theorem toLowerCaseLoop_fst (data : Bytes) :
    (toLowerCaseLoop false data).1 = isValidUsernameLoop data := by
  induction data with
  | nil => rfl
  | cons ch data ih =>
    rw [toLowerCaseLoop, isValidUsernameLoop, ← ih]
    cases isLetter ch with
    | true => simp
    | false =>
      cases isDigit ch with
      | true => simp
      | false => simp

/-- Lowering accepts the names that are valid, and then lowers every letter. -/
theorem toLowerCase_fst (data : Bytes) : (toLowerCase data).1 = isValidUsername data := by
  unfold toLowerCase isValidUsername
  cases data with
  | nil => rfl
  | cons ch data => exact toLowerCaseLoop_fst (ch :: data)

theorem toLowerCase_snd (data : Bytes) (h : isValidUsername data) :
    (toLowerCase data).2 = data.map toLower := by
  unfold toLowerCase
  cases data with
  | nil => cases h
  | cons ch data =>
    show (toLowerCaseLoop false (ch :: data)).2 = _
    rw [toLowerCaseLoop_ok _ h]

theorem isValidUsernameLoop_iff (username : Bytes) :
    isValidUsernameLoop username ↔ ∀ ch ∈ username, isDigit ch ∨ isLetter ch := by
  induction username with
  | nil => exact iff_of_true rfl nofun
  | cons ch username ih =>
    rw [isValidUsernameLoop, List.forall_mem_cons, ← ih]
    cases isDigit ch with
    | true => simp
    | false =>
      cases isLetter ch with
      | true => simp
      | false => simp

theorem isValidUsername_iff (username : Bytes) :
    isValidUsername username ↔ username ≠ [] ∧ ∀ ch ∈ username, isDigit ch ∨ isLetter ch := by
  rw [isValidUsername, ← isValidUsernameLoop_iff]
  cases username with
  | nil => simp
  | cons ch username => simp

theorem not_mem_of_isValidUsername {username : Bytes} (h : isValidUsername username) (ch : UInt8)
    (hch : ¬ (isDigit ch ∨ isLetter ch)) : ch ∉ username :=
  fun hmem => hch (((isValidUsername_iff username).mp h).2 ch hmem)

theorem mem_map_toLower {username : Bytes} (h : isValidUsername username) :
    ∀ ch ∈ username.map toLower, (97 ≤ ch ∧ ch ≤ 122) ∨ (48 ≤ ch ∧ ch ≤ 57) := by
  intro lowered hlowered
  obtain ⟨ch, hch, rfl⟩ := List.mem_map.mp hlowered
  have hkind := ((isValidUsername_iff username).mp h).2 ch hch
  simp only [isDigit, isLetter, Bool.or_eq_true, Bool.and_eq_true, decide_eq_true_eq,
    UInt8.le_iff_toNat_le, UInt8.reduceToNat] at hkind
  unfold toLower
  split
  · rename_i hupper
    simp only [UInt8.le_iff_toNat_le, UInt8.reduceToNat, UInt8.toNat_add] at hupper ⊢
    omega
  · rename_i hupper
    simp only [UInt8.le_iff_toNat_le, UInt8.reduceToNat] at hupper ⊢
    omega

end Utils

end GrowServer
