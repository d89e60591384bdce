import GrowServer.Packet.VariantList
import GrowServer.Utils.TextParse

/-!
# TankInfo (Protocol/TankInfo.cpp)

The login details of a player and the decoder of the login message. The setters
refuse a text of the wrong length; the decoder stops at the first field that is
refused, with the fields before it already stored.
-/

namespace GrowServer
open LittleEndian StdNumber Outcome

structure TankInfo where
  m_requestedName : Bytes := []
  m_tankIDName : Bytes := []
  m_tankIDPass : Bytes := []
  m_relativeId : Bytes := []
  m_countryCode : Bytes := []
  m_gameVersion : FloatBits := 0
  m_platformID : Int32 := -1
  m_flags : UInt32 := 0
  deriving DecidableEq, Repr

def clientFlagLoggedOn : UInt32 := 1

namespace TankInfo

def isFlagOn (this : TankInfo) (flag : UInt32) : Bool := this.m_flags &&& flag != 0

def fits (limit : ℕ) (data : Bytes) : Bool := ¬ (data.length > limit ∨ data.length < 1)

/-- A setter: `stored` unless the text does not fit. -/
def setBounded (this : TankInfo) (limit : ℕ) (data : Bytes) (stored : TankInfo) :
    Bool × TankInfo :=
  if fits limit data then (true, stored) else (false, this)

def setRequestedName (this : TankInfo) (data : Bytes) : Bool × TankInfo :=
  this.setBounded 16 data { this with m_requestedName := data }

def setTankIDName (this : TankInfo) (data : Bytes) : Bool × TankInfo :=
  this.setBounded 24 data { this with m_tankIDName := data }

def setTankIDPass (this : TankInfo) (data : Bytes) : Bool × TankInfo :=
  this.setBounded 24 data { this with m_tankIDPass := data }

def setRelativeId (this : TankInfo) (data : Bytes) : Bool × TankInfo :=
  this.setBounded 32 data { this with m_relativeId := data }

def setCountryCode (this : TankInfo) (data : Bytes) : Bool × TankInfo :=
  this.setBounded 3 data { this with m_countryCode := data }

-- `static_cast<int32_t>(platformID[0])` of a signed `char`
def platformOf (c : UInt8) : Int32 := c.toInt8.toInt32

def storeField (parser : TextParse) (key : Bytes) (setter : Bytes → Bool × TankInfo)
    (next : TankInfo → Except Fault (Bool × TankInfo)) : Except Fault (Bool × TankInfo) := do
  let (ok, this) := setter (← parser.get key 1)
  if ¬ ok then return (false, this) else next this

/-- TankInfo.cpp:74-88: the result and the details as they are left. -/
def serialize (this : TankInfo) (parser : TextParse) : Except Fault (Bool × TankInfo) :=
  storeField parser (ascii "requestedName") this.setRequestedName fun this =>
  storeField parser (ascii "country") this.setCountryCode fun this =>
  storeField parser (ascii "rid") this.setRelativeId fun this => do
    let m_gameVersion ← stof (← parser.get (ascii "game_version") 1)
    let this := { this with m_gameVersion }
    let platformID ← parser.get (ascii "platformID") 1
    match platformID with
    | [] => return (false, this)
    | c :: _ =>
      let this := { this with m_platformID := platformOf c }
      return (¬ this.m_platformID < 0, this)

def Accepted (lines : List Bytes) : Prop :=
  fits 16 (TextParse.lookup (ascii "requestedName") 1 lines) ∧
    fits 3 (TextParse.lookup (ascii "country") 1 lines) ∧
    fits 32 (TextParse.lookup (ascii "rid") 1 lines)

def gameVersionText (lines : List Bytes) : Bytes :=
  TextParse.lookup (ascii "game_version") 1 lines

def platformText (lines : List Bytes) : Bytes := TextParse.lookup (ascii "platformID") 1 lines

theorem setBounded_fst (this : TankInfo) (limit : ℕ) (data : Bytes) (stored : TankInfo) :
    (this.setBounded limit data stored).1 = fits limit data := by
  unfold setBounded
  cases fits limit data with
  | false => rfl
  | true => rfl

theorem storeField_completesIff (parser : TextParse) (key : Bytes)
    (setter : Bytes → Bool × TankInfo) (next : TankInfo → Except Fault (Bool × TankInfo))
    (limit : ℕ) (hsetter : ∀ data, (setter data).1 = fits limit data) {P : Prop}
    (hnext : ∀ this, CompletesIff .tokenIndex (next this) P) :
    CompletesIff .tokenIndex (storeField parser key setter next)
      (fits limit (TextParse.lookup key 1 parser.m_data) → P) := by
  unfold storeField
  refine CompletesIff.bind_value (parser.get_valueOr key 1) ?_
  have hok := hsetter (TextParse.lookup key 1 parser.m_data)
  cases hset : setter (TextParse.lookup key 1 parser.m_data) with
  | mk ok this =>
    rw [hset] at hok
    refine (CompletesIff.ite (fun _ => CompletesIff.ok (false, this)) fun _ => hnext this).congr ?_
    rw [← hok]
    cases ok with
    | false => simp
    | true => simp

/-- Decoding throws only at the game version, which is reached behind three fields
that are accepted. -/
theorem serialize_completesIff (this : TankInfo) (parser : TextParse) :
    CompletesIff .tokenIndex (this.serialize parser)
      (Accepted parser.m_data → Converts (gameVersionText parser.m_data)) := by
  have hstof : CompletesIff .tokenIndex (stof (gameVersionText parser.m_data))
      (Converts (gameVersionText parser.m_data)) := fun _ => stof_ok_iff _
  refine CompletesIff.congr
    (storeField_completesIff parser _ _ _ 16 (fun data => setBounded_fst _ 16 data _) fun this =>
      storeField_completesIff parser _ _ _ 3 (fun data => setBounded_fst _ 3 data _) fun this =>
        storeField_completesIff parser _ _ _ 32 (fun data => setBounded_fst _ 32 data _) fun this =>
          CompletesIff.bind_value (parser.get_valueOr _ 1)
            (CompletesIff.bind hstof fun m_gameVersion _ =>
              CompletesIff.bind_value (parser.get_valueOr _ 1) (Q := True) ?_)) ?_
  · cases TextParse.lookup (ascii "platformID") 1 parser.m_data with
    | nil => exact CompletesIff.ok _
    | cons c rest => exact CompletesIff.ok _
  · rw [and_true, Accepted]
    exact ⟨fun h hall => h hall.1 hall.2.1 hall.2.2, fun h h1 h2 h3 => h ⟨h1, h2, h3⟩⟩

/-! ### What decoding stores -/

def loginKeys : List Bytes :=
  [ascii "requestedName", ascii "country", ascii "rid", ascii "game_version", ascii "platformID"]

/-- Every field of the login message is found and passes its check. -/
structure Decodes (lines : List Bytes) : Prop where
  readable : ∀ key ∈ loginKeys, TextParse.EveryLineKeyed key lines
  accepted : Accepted lines
  version : Converts (gameVersionText lines)
  platform : ∃ c rest, TextParse.lookup (ascii "platformID") 1 lines = c :: rest ∧
    ¬ platformOf c < 0

theorem storeField_eq_ok_iff (parser : TextParse) (key : Bytes) (this : TankInfo) (limit : ℕ)
    (stored : Bytes → TankInfo) (next : TankInfo → Except Fault (Bool × TankInfo))
    (r : Bool × TankInfo) :
    storeField parser key (fun data => this.setBounded limit data (stored data)) next = .ok r ↔
      TextParse.EveryLineKeyed key parser.m_data ∧
        if fits limit (TextParse.lookup key 1 parser.m_data) then
          next (stored (TextParse.lookup key 1 parser.m_data)) = .ok r
        else (false, this) = r := by
  have hstored (data : Bytes) :
      (if ¬ (this.setBounded limit data (stored data)).1 then
          .ok (false, (this.setBounded limit data (stored data)).2)
        else next (this.setBounded limit data (stored data)).2) = .ok r ↔
      if fits limit data then next (stored data) = .ok r else (false, this) = r := by
    unfold setBounded
    cases fits limit data with
    | false => exact ⟨Except.ok.inj, congrArg Except.ok⟩
    | true => exact Iff.rfl
  unfold storeField
  rw [bind_eq_ok]
  constructor
  · intro h
    obtain ⟨data, hget, hrest⟩ := h
    obtain ⟨hkeyed, rfl⟩ := (parser.get_eq_ok_iff key 1 data).mp hget
    exact ⟨hkeyed, (hstored _).mp hrest⟩
  · intro h
    obtain ⟨hkeyed, hrest⟩ := h
    exact ⟨_, (parser.get_eq_ok_iff key 1 _).mpr ⟨hkeyed, rfl⟩, (hstored _).mpr hrest⟩

/-- The end of the decoder, behind the three stored fields. -/
def decodePlatform (this : TankInfo) (parser : TextParse) : Except Fault (Bool × TankInfo) := do
  let m_gameVersion ← stof (← parser.get (ascii "game_version") 1)
  let this := { this with m_gameVersion }
  let platformID ← parser.get (ascii "platformID") 1
  match platformID with
  | [] => return (false, this)
  | c :: _ =>
    let this := { this with m_platformID := platformOf c }
    return (¬ this.m_platformID < 0, this)

theorem serialize_eq (this : TankInfo) (parser : TextParse) :
    this.serialize parser =
      storeField parser (ascii "requestedName") this.setRequestedName fun this =>
      storeField parser (ascii "country") this.setCountryCode fun this =>
      storeField parser (ascii "rid") this.setRelativeId fun this =>
      this.decodePlatform parser := rfl

def SameAccount (a b : TankInfo) : Prop :=
  a.m_tankIDName = b.m_tankIDName ∧ a.m_tankIDPass = b.m_tankIDPass

/-- The game version is stored, and the platform where there is one, also when it is
refused. -/
theorem decodePlatform_writes {this det : TankInfo} {parser : TextParse} {ok : Bool}
    (h : this.decodePlatform parser = .ok (ok, det)) :
    TextParse.EveryLineKeyed (ascii "game_version") parser.m_data ∧
      TextParse.EveryLineKeyed (ascii "platformID") parser.m_data ∧
      ∃ bits, stof (gameVersionText parser.m_data) = .ok bits ∧
        ((platformText parser.m_data = [] ∧ ok = false ∧
            det = { this with m_gameVersion := bits }) ∨
          ∃ c rest, platformText parser.m_data = c :: rest ∧
            ok = decide (¬ platformOf c < 0) ∧
            det = { this with m_gameVersion := bits, m_platformID := platformOf c }) := by
  obtain ⟨text, hversion, hrest⟩ := bind_eq_ok.mp h
  obtain ⟨hversionKeyed, rfl⟩ := (parser.get_eq_ok_iff _ 1 text).mp hversion
  obtain ⟨bits, hbits, hrest⟩ := bind_eq_ok.mp hrest
  obtain ⟨platformID, hplatform, hrest⟩ := bind_eq_ok.mp hrest
  obtain ⟨hplatformKeyed, hlookup⟩ := (parser.get_eq_ok_iff _ 1 platformID).mp hplatform
  refine ⟨hversionKeyed, hplatformKeyed, bits, hbits, ?_⟩
  cases platformID with
  | nil =>
    obtain ⟨rfl, rfl⟩ := Prod.mk.inj (Except.ok.inj hrest)
    exact Or.inl ⟨hlookup, rfl, rfl⟩
  | cons c rest =>
    obtain ⟨rfl, rfl⟩ := Prod.mk.inj (Except.ok.inj hrest)
    exact Or.inr ⟨c, rest, hlookup, rfl, rfl⟩

theorem decodePlatform_ok {this det : TankInfo} {parser : TextParse} {ok : Bool}
    (h : this.decodePlatform parser = .ok (ok, det)) :
    SameAccount det this ∧ det.m_requestedName = this.m_requestedName ∧
      TextParse.EveryLineKeyed (ascii "game_version") parser.m_data ∧
      TextParse.EveryLineKeyed (ascii "platformID") parser.m_data ∧
      Converts (gameVersionText parser.m_data) ∧
      (ok = true → ∃ c rest, platformText parser.m_data = c :: rest ∧ ¬ platformOf c < 0) := by
  obtain ⟨hversionKeyed, hplatformKeyed, bits, hbits, hplatform⟩ := decodePlatform_writes h
  have hconverts : Converts (gameVersionText parser.m_data) := (stof_ok_iff _).mp ⟨bits, hbits⟩
  rcases hplatform with ⟨-, rfl, rfl⟩ | ⟨c, rest, htext, rfl, rfl⟩
  · refine ⟨⟨rfl, rfl⟩, rfl, hversionKeyed, hplatformKeyed, hconverts, ?_⟩
    intro hok
    cases hok
  · refine ⟨⟨rfl, rfl⟩, rfl, hversionKeyed, hplatformKeyed, hconverts, ?_⟩
    intro hpositive
    exact ⟨c, rest, htext, of_decide_eq_true hpositive⟩

theorem decodePlatform_of_decodes (this : TankInfo) {parser : TextParse}
    (h : Decodes parser.m_data) : ∃ det, this.decodePlatform parser = .ok (true, det) := by
  have hversion := (parser.get_eq_ok_iff (ascii "game_version") 1 _).mpr
    ⟨h.readable _ (by decide), rfl⟩
  obtain ⟨bits, hbits⟩ := (stof_ok_iff _).mpr h.version
  obtain ⟨c, rest, hlookup, hpositive⟩ := h.platform
  have hplatform := (parser.get_eq_ok_iff (ascii "platformID") 1 _).mpr
    ⟨h.readable _ (by decide), hlookup⟩
  refine ⟨{ this with m_gameVersion := bits, m_platformID := platformOf c }, ?_⟩
  refine bind_eq_ok.mpr ⟨_, hversion, bind_eq_ok.mpr ⟨bits, hbits, bind_eq_ok.mpr ⟨_, hplatform, ?_⟩⟩⟩
  exact congrArg (fun ok => Except.ok (ok, _)) (decide_eq_true hpositive)

/-- The decoder stops at the first of the three texts that does not fit, with those
before it stored, or goes on to the game version and the platform. -/
theorem serialize_cases {this det : TankInfo} {parser : TextParse} {ok : Bool}
    (h : this.serialize parser = .ok (ok, det)) :
    let name := TextParse.lookup (ascii "requestedName") 1 parser.m_data
    let country := TextParse.lookup (ascii "country") 1 parser.m_data
    let rid := TextParse.lookup (ascii "rid") 1 parser.m_data
    (¬ fits 16 name ∧ ok = false ∧ det = this) ∨
      (fits 16 name ∧ ¬ fits 3 country ∧ ok = false ∧ det = { this with m_requestedName := name }) ∨
      (fits 16 name ∧ fits 3 country ∧ ¬ fits 32 rid ∧ ok = false ∧
        det = { this with m_requestedName := name, m_countryCode := country }) ∨
      (Accepted parser.m_data ∧
        (∀ key ∈ [ascii "requestedName", ascii "country", ascii "rid"],
          TextParse.EveryLineKeyed key parser.m_data) ∧
        ({ this with
            m_requestedName := name
            m_countryCode := country
            m_relativeId := rid } : TankInfo).decodePlatform parser = .ok (ok, det)) := by
  intro name country rid
  rw [serialize_eq] at h
  obtain ⟨hnameKeyed, h⟩ := (storeField_eq_ok_iff parser _ this 16 _ _ _).mp h
  by_cases hname : fits 16 name
  swap
  · rw [if_neg hname] at h
    obtain ⟨rfl, rfl⟩ := Prod.mk.inj h
    exact Or.inl ⟨hname, rfl, rfl⟩
  rw [if_pos hname] at h
  obtain ⟨hcountryKeyed, h⟩ := (storeField_eq_ok_iff parser _ _ 3 _ _ _).mp h
  by_cases hcountry : fits 3 country
  swap
  · rw [if_neg hcountry] at h
    obtain ⟨rfl, rfl⟩ := Prod.mk.inj h
    exact Or.inr (Or.inl ⟨hname, hcountry, rfl, rfl⟩)
  rw [if_pos hcountry] at h
  obtain ⟨hridKeyed, h⟩ := (storeField_eq_ok_iff parser _ _ 32 _ _ _).mp h
  by_cases hrid : fits 32 rid
  swap
  · rw [if_neg hrid] at h
    obtain ⟨rfl, rfl⟩ := Prod.mk.inj h
    exact Or.inr (Or.inr (Or.inl ⟨hname, hcountry, hrid, rfl, rfl⟩))
  rw [if_pos hrid] at h
  refine Or.inr (Or.inr (Or.inr ⟨⟨hname, hcountry, hrid⟩, ?_, h⟩))
  intro key hkey
  simp only [List.mem_cons, List.not_mem_nil, or_false] at hkey
  rcases hkey with rfl | rfl | rfl
  · exact hnameKeyed
  · exact hcountryKeyed
  · exact hridKeyed

theorem serialize_ok {this det : TankInfo} {parser : TextParse} {ok : Bool}
    (h : this.serialize parser = .ok (ok, det)) :
    SameAccount det this ∧ (ok = true → Decodes parser.m_data ∧
      det.m_requestedName = TextParse.lookup (ascii "requestedName") 1 parser.m_data) := by
  rcases serialize_cases h with ⟨-, rfl, rfl⟩ | ⟨-, -, rfl, rfl⟩ | ⟨-, -, -, rfl, rfl⟩ |
    ⟨haccepted, hkeyed, h⟩
  · exact ⟨⟨rfl, rfl⟩, fun hok => absurd hok Bool.false_ne_true⟩
  · exact ⟨⟨rfl, rfl⟩, fun hok => absurd hok Bool.false_ne_true⟩
  · exact ⟨⟨rfl, rfl⟩, fun hok => absurd hok Bool.false_ne_true⟩
  · obtain ⟨haccount, hstored, hversion, hplatform, hconverts, hpositive⟩ := decodePlatform_ok h
    refine ⟨haccount, fun hok => ⟨⟨?_, haccepted, hconverts, hpositive hok⟩, hstored⟩⟩
    intro key hkey
    rcases List.mem_append.mp (show key ∈ [_, _, _] ++ [_, _] from hkey) with hearly | hlate
    · exact hkeyed key hearly
    · rcases List.mem_pair.mp hlate with rfl | rfl
      · exact hversion
      · exact hplatform

theorem serialize_of_decodes (this : TankInfo) {parser : TextParse} (h : Decodes parser.m_data) :
    ∃ det, this.serialize parser = .ok (true, det) := by
  have hkeyed (key : Bytes) (hkey : key ∈ loginKeys) := h.readable key hkey
  obtain ⟨det, hdet⟩ := decodePlatform_of_decodes
    { this with
      m_requestedName := TextParse.lookup (ascii "requestedName") 1 parser.m_data
      m_countryCode := TextParse.lookup (ascii "country") 1 parser.m_data
      m_relativeId := TextParse.lookup (ascii "rid") 1 parser.m_data } h
  refine ⟨det, ?_⟩
  rw [serialize_eq]
  refine (storeField_eq_ok_iff parser _ this 16 _ _ _).mpr ⟨hkeyed _ (by decide), ?_⟩
  rw [if_pos h.accepted.1]
  refine (storeField_eq_ok_iff parser _ _ 3 _ _ _).mpr ⟨hkeyed _ (by decide), ?_⟩
  rw [if_pos h.accepted.2.1]
  refine (storeField_eq_ok_iff parser _ _ 32 _ _ _).mpr ⟨hkeyed _ (by decide), ?_⟩
  rw [if_pos h.accepted.2.2]
  exact hdet

theorem serialize_true_iff {this det : TankInfo} {parser : TextParse} {ok : Bool}
    (h : this.serialize parser = .ok (ok, det)) : ok = true ↔ Decodes parser.m_data := by
  constructor
  · intro hok
    exact ((serialize_ok h).2 hok).1
  · intro hdecodes
    obtain ⟨det', hdet'⟩ := serialize_of_decodes this hdecodes
    exact (Prod.mk.inj (Except.ok.inj (h.symm.trans hdet'))).1

/-! ### What is left behind -/

/-- Each field the decoder reaches and stores is the one that is there already. -/
structure StoresNothingNew (this : TankInfo) (lines : List Bytes) : Prop where
  requestedName : fits 16 (TextParse.lookup (ascii "requestedName") 1 lines) →
    TextParse.lookup (ascii "requestedName") 1 lines = this.m_requestedName
  countryCode : fits 16 (TextParse.lookup (ascii "requestedName") 1 lines) →
    fits 3 (TextParse.lookup (ascii "country") 1 lines) →
    TextParse.lookup (ascii "country") 1 lines = this.m_countryCode
  relativeId : Accepted lines → TextParse.lookup (ascii "rid") 1 lines = this.m_relativeId
  gameVersion : Accepted lines → stof (gameVersionText lines) = .ok this.m_gameVersion
  platformID : Accepted lines → ∀ c rest, platformText lines = c :: rest →
    platformOf c = this.m_platformID

theorem overwritten_iff (this : TankInfo) (m_requestedName m_countryCode m_relativeId : Bytes)
    (m_gameVersion : FloatBits) (m_platformID : Int32) :
    { this with m_requestedName, m_countryCode, m_relativeId, m_gameVersion, m_platformID } = this ↔
      m_requestedName = this.m_requestedName ∧ m_countryCode = this.m_countryCode ∧
        m_relativeId = this.m_relativeId ∧ m_gameVersion = this.m_gameVersion ∧
        m_platformID = this.m_platformID := by
  cases this
  simp only [TankInfo.mk.injEq]
  tauto

theorem storesNothingNew_iff_of_not_accepted {this : TankInfo} {lines : List Bytes}
    (h : ¬ Accepted lines) :
    StoresNothingNew this lines ↔
      (fits 16 (TextParse.lookup (ascii "requestedName") 1 lines) →
        TextParse.lookup (ascii "requestedName") 1 lines = this.m_requestedName) ∧
      (fits 16 (TextParse.lookup (ascii "requestedName") 1 lines) →
        fits 3 (TextParse.lookup (ascii "country") 1 lines) →
        TextParse.lookup (ascii "country") 1 lines = this.m_countryCode) :=
  ⟨fun hnew => ⟨hnew.requestedName, hnew.countryCode⟩, fun hnew =>
    ⟨hnew.1, hnew.2, fun haccepted => absurd haccepted h, fun haccepted => absurd haccepted h,
      fun haccepted => absurd haccepted h⟩⟩

theorem storesNothingNew_iff_of_accepted {this : TankInfo} {lines : List Bytes}
    (h : Accepted lines) :
    StoresNothingNew this lines ↔
      TextParse.lookup (ascii "requestedName") 1 lines = this.m_requestedName ∧
      TextParse.lookup (ascii "country") 1 lines = this.m_countryCode ∧
      TextParse.lookup (ascii "rid") 1 lines = this.m_relativeId ∧
      stof (gameVersionText lines) = .ok this.m_gameVersion ∧
      ∀ c rest, platformText lines = c :: rest → platformOf c = this.m_platformID :=
  ⟨fun hnew => ⟨hnew.requestedName h.1, hnew.countryCode h.1 h.2.1, hnew.relativeId h,
      hnew.gameVersion h, hnew.platformID h⟩, fun hall =>
    ⟨fun _ => hall.1, fun _ _ => hall.2.1, fun _ => hall.2.2.1, fun _ => hall.2.2.2.1,
      fun _ => hall.2.2.2.2⟩⟩

theorem decodePlatform_same_iff (this : TankInfo) {stored det : TankInfo} {parser : TextParse}
    {ok : Bool}
    (h : stored.decodePlatform parser = .ok (ok, det))
    (hplatform : stored.m_platformID = this.m_platformID) :
    det = { stored with m_gameVersion := det.m_gameVersion, m_platformID := det.m_platformID } ∧
      (stof (gameVersionText parser.m_data) = .ok this.m_gameVersion ↔
        det.m_gameVersion = this.m_gameVersion) ∧
      ((∀ c rest, platformText parser.m_data = c :: rest → platformOf c = this.m_platformID) ↔
        det.m_platformID = this.m_platformID) := by
  obtain ⟨-, -, bits, hbits, hwritten⟩ := decodePlatform_writes h
  have hversion : stof (gameVersionText parser.m_data) = .ok this.m_gameVersion ↔
      bits = this.m_gameVersion := by
    rw [hbits]
    exact ⟨Except.ok.inj, congrArg Except.ok⟩
  rcases hwritten with ⟨htext, -, rfl⟩ | ⟨c, rest, htext, -, rfl⟩
  · refine ⟨rfl, hversion, iff_of_true ?_ hplatform⟩
    intro c rest hcons
    rw [htext] at hcons
    cases hcons
  · refine ⟨rfl, hversion, ?_⟩
    rw [htext]
    constructor
    · intro hall
      exact hall c rest rfl
    · intro hsame c' rest' hcons
      obtain ⟨rfl, rfl⟩ := List.cons.inj hcons
      exact hsame

theorem serialize_same_iff {this det : TankInfo} {parser : TextParse} {ok : Bool}
    (h : this.serialize parser = .ok (ok, det)) :
    det = this ↔ StoresNothingNew this parser.m_data := by
  rcases serialize_cases h with ⟨hname, -, rfl⟩ | ⟨hname, hcountry, -, rfl⟩ |
    ⟨hname, hcountry, hrid, -, rfl⟩ | ⟨haccepted, -, h⟩
  · rw [storesNothingNew_iff_of_not_accepted fun haccepted => hname haccepted.1]
    exact iff_of_true rfl ⟨fun hfits => absurd hfits hname, fun hfits => absurd hfits hname⟩
  · rw [storesNothingNew_iff_of_not_accepted fun haccepted => hcountry haccepted.2.1]
    refine (overwritten_iff this _ _ _ _ _).trans ?_
    exact ⟨fun hsame => ⟨fun _ => hsame.1, fun _ hfits => absurd hfits hcountry⟩,
      fun hnew => ⟨hnew.1 hname, rfl, rfl, rfl, rfl⟩⟩
  · rw [storesNothingNew_iff_of_not_accepted fun haccepted => hrid haccepted.2.2]
    refine (overwritten_iff this _ _ _ _ _).trans ?_
    exact ⟨fun hsame => ⟨fun _ => hsame.1, fun _ _ => hsame.2.1⟩,
      fun hnew => ⟨hnew.1 hname, hnew.2 hname hcountry, rfl, rfl, rfl⟩⟩
  · obtain ⟨hdet, hversion, hplatform⟩ := decodePlatform_same_iff this h rfl
    rw [storesNothingNew_iff_of_accepted haccepted, hversion, hplatform, hdet]
    exact overwritten_iff this _ _ _ _ _

end TankInfo

end GrowServer
