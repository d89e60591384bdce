import GrowServer.Lib.Decimal
import GrowServer.Protocol.TankInfo
import GrowServer.Utils.MiscUtils

/-!
# The platform of a login (Protocol/TankInfo.hpp, Protocol/TankInfo.cpp)

The platforms are numbered. The decoder stores the code of the first character of the
field, not the number that is written there.
-/

namespace GrowServer
open LittleEndian

/-- `ePlatformID`. -/
inductive PlatformID where
  | unknown
  | windows
  | ios
  | osx
  | linux
  | android
  | windowsMobile
  | webos
  | bbx
  | flash
  | html5
  | maxval
  deriving DecidableEq, Repr

-- PLATFORM_ID_UNKNOWN is -1, the others follow it
def PlatformID.value (platform : PlatformID) : ℤ := platform.ctorIdx - 1

def PlatformID.Legal (id : ℤ) : Prop := 0 ≤ id ∧ id < PlatformID.maxval.value

/-- The number that is written in decimal at the start of a text. -/
def leadingNumber (text : Bytes) : Option ℕ :=
  let digits := text.takeWhile Utils.isDigit
  if digits.isEmpty then none else some (Decimal.value digits)

theorem isDigit_of_leadingNumber {c : UInt8} {rest : Bytes} {n : ℕ}
    (h : leadingNumber (c :: rest) = some n) : Utils.isDigit c := by
  by_contra hc
  rw [leadingNumber, List.takeWhile_cons_of_neg hc] at h
  cases h

namespace TankInfo

theorem platformOf_digit {c : UInt8} (h : Utils.isDigit c) :
    (platformOf c).toInt = c.toNat ∧ 48 ≤ c.toNat := by
  have hbounds : 48 ≤ c.toNat ∧ c.toNat ≤ 57 := by
    simpa [Utils.isDigit, UInt8.le_iff_toNat_le] using h
  refine ⟨?_, hbounds.1⟩
  show c.toInt8.toInt32.toInt = c.toNat
  rw [Int8.toInt_toInt32]
  exact BitVec.toInt_eq_toNat_of_lt (show 2 * c.toNat < 2 ^ 8 by omega)

/-- What storing the platform means: an accepted message has the number of a platform,
which is stored, and any other is refused. -/
structure StoresPlatform (parser : TextParse) (ok : Bool) (det : TankInfo) : Prop where
  legal : ok = true → PlatformID.Legal det.m_platformID.toInt
  written : ok = true → ∃ n, leadingNumber (platformText parser.m_data) = some n ∧
    det.m_platformID.toInt = n
  refused : (∀ n, leadingNumber (platformText parser.m_data) = some n → ¬ PlatformID.Legal n) →
    ok = false

/-- The code of a digit is behind the last platform, so what an accepted message stores
is not a platform where the field begins with a number. -/
theorem not_storesPlatform {this det : TankInfo} {parser : TextParse}
    (h : this.serialize parser = .ok (true, det)) : ¬ StoresPlatform parser true det := by
  intro hstores
  obtain ⟨n, hnumber, hn⟩ := hstores.written rfl
  obtain ⟨-, hbelow⟩ := hstores.legal rfl
  rcases serialize_cases h with ⟨-, hok, -⟩ | ⟨-, -, hok, -⟩ | ⟨-, -, -, hok, -⟩ | ⟨-, -, hdecode⟩
  · cases hok
  · cases hok
  · cases hok
  obtain ⟨-, -, bits, -, ⟨-, hok, -⟩ | ⟨c, rest, htext, -, hdet⟩⟩ := decodePlatform_writes hdecode
  · cases hok
  rw [htext] at hnumber
  obtain ⟨hcode, hlarge⟩ := platformOf_digit (isDigit_of_leadingNumber hnumber)
  have hmaxval : PlatformID.maxval.value = 10 := rfl
  have hstored : det.m_platformID.toInt = (platformOf c).toInt := by rw [hdet]
  omega

/-- The decoder stores platforms as it should exactly on the messages that it does not
accept. -/
theorem serialize_storesPlatform_iff (this : TankInfo) (parser : TextParse) :
    (∀ ok det, this.serialize parser = .ok (ok, det) → StoresPlatform parser ok det) ↔
      ¬ Decodes parser.m_data := by
  constructor
  · intro h hdecodes
    obtain ⟨det, hserialize⟩ := serialize_of_decodes this hdecodes
    exact not_storesPlatform hserialize (h true det hserialize)
  · intro h ok det hserialize
    have hok : ok ≠ true := fun hok => h ((serialize_true_iff hserialize).mp hok)
    exact ⟨fun heq => absurd heq hok, fun heq => absurd heq hok, fun _ => Bool.eq_false_iff.mpr hok⟩

def windowsLogin : TextParse :=
  TextParse.parse (ascii "requestedName|abc\ncountry|us\nrid|1\ngame_version|4.5\nplatformID|0")

theorem not_serialize_storesPlatform :
    ¬ ∀ (this : TankInfo) (parser : TextParse) (ok : Bool) (det : TankInfo),
      this.serialize parser = .ok (ok, det) → StoresPlatform parser ok det := by
  intro h
  have hserialize : ({} : TankInfo).serialize windowsLogin = .ok (true,
      { m_requestedName := ascii "abc"
        m_relativeId := ascii "1"
        m_countryCode := ascii "us"
        m_gameVersion := 0x40900000
        m_platformID := 48 }) := by
    decide +kernel
  have hlegal := (h {} windowsLogin true _ hserialize).legal rfl
  exact absurd hlegal.2 (by decide)

end TankInfo

end GrowServer
