import GrowServer.Manager.ItemInfo
import GrowServer.Utils.StdNumber

/-!
# ItemManager (Manager/Item/ItemManager.cpp)

Loading and saving `cache/items.dat`: a version, a count, then the records.
Loading stops behind a record whose id is not its index, with that record kept;
saving writes the header as it was read and the records that are held.
-/

namespace GrowServer
open LittleEndian ByteStream BinaryReader BinaryWriter

structure ItemManager where
  m_version : UInt16 := 0
  m_itemCount : UInt32 := 0
  m_items : List ItemInfo := []
  deriving DecidableEq

namespace ItemManager

/-- A call of `Serialize` that returned: its result, the manager it leaves and
its reader at the end, which is only built over a non-empty file. -/
structure Loaded where
  result : Bool
  manager : ItemManager
  reader : Option BinaryReader
  deriving DecidableEq

-- the loop of `Serialize` at `index`, with `n` records still announced; the
-- comparison with the id converts the index to 32 bits
def serializeItems : (n index : ℕ) → Reader (List ItemInfo)
  | 0, _ => return []
  | n + 1, index => do
    let item ← ItemInfo.serialize
    if UInt32.ofNat index ≠ item.m_Id then
      return [item]
    else do
      let items ← serializeItems n (index + 1)
      return item :: items

def serializeFrom (this : ItemManager) : Reader ItemManager := do
  let m_version ← read UInt16
  let m_itemCount ← read UInt32
  let items ← serializeItems m_itemCount.toNat 0
  return ⟨m_version, m_itemCount, this.m_items ++ items⟩

def serialize (this : ItemManager) (file : Option Bytes) : Option Loaded :=
  match file with
  | none => some ⟨false, this, none⟩
  | some itemData =>
    if itemData.isEmpty then some ⟨false, this, none⟩
    else (this.serializeFrom (BinaryReader.mk itemData)).map fun (manager, br) =>
      ⟨true, manager, some br⟩

def packItems : List ItemInfo → Writer Unit
  | [] => pure ()
  | item :: items => do
    item.pack
    packItems items

def packInto (this : ItemManager) : Writer Unit := do
  write this.m_version
  write this.m_itemCount
  packItems this.m_items

def alloc (this : ItemManager) : ℕ :=
  this.m_items.foldl (fun alloc item => alloc + (item.getMemoryUsage + 20)) 6

def encode (this : ItemManager) : Option Bytes :=
  (this.packInto (BinaryWriter.mk this.alloc)).map fun (_, buffer) => buffer.written

def kill (this : ItemManager) : ItemManager := { this with m_items := [] }

/-- ItemManager.cpp:57-61; the id behind the last one is looked up as well. -/
def getItem (this : ItemManager) (itemId : UInt32) : Except Fault (Option ItemInfo) :=
  if itemId.toNat > this.m_items.length then .ok none
  else
    match this.m_items[itemId.toNat]? with
    | some item => .ok (some item)
    | none => .error .itemIndex

theorem getItem_ok_iff (this : ItemManager) (itemId : UInt32) :
    (∃ item, this.getItem itemId = .ok item) ↔ this.m_items.length ≠ itemId.toNat := by
  unfold getItem
  by_cases hlarge : itemId.toNat > this.m_items.length
  · rw [if_pos hlarge]
    exact iff_of_true ⟨none, rfl⟩ (by omega)
  · rw [if_neg hlarge]
    by_cases hlt : itemId.toNat < this.m_items.length
    · rw [List.getElem?_eq_getElem hlt]
      exact iff_of_true ⟨_, rfl⟩ (by omega)
    · rw [List.getElem?_eq_none (by omega)]
      exact iff_of_false (by simp) (by omega)

theorem getItem_some {this : ItemManager} {itemId : UInt32} {item : ItemInfo}
    (h : this.getItem itemId = .ok (some item)) : this.m_items[itemId.toNat]? = some item := by
  unfold getItem at h
  split at h
  · cases h
  · cases hentry : this.m_items[itemId.toNat]? with
    | none =>
      rw [hentry] at h
      cases h
    | some entry =>
      rw [hentry] at h
      rw [Option.some.inj (Except.ok.inj h)]

/-! ### Saving -/

def encoding (this : ItemManager) : Bytes :=
  [Pod.toBytes this.m_version, Pod.toBytes this.m_itemCount,
    this.m_items.flatMap ItemInfo.encoding].flatten

theorem writes_packItems (items : List ItemInfo) :
    Writes (packItems items) (items.flatMap ItemInfo.encoding) := by
  induction items with
  | nil => exact Writes.nil
  | cons item items ih => exact Writes.bind item.writes_pack ih

theorem writes_packInto (this : ItemManager) : Writes this.packInto this.encoding :=
  Writes.cons (writes_write _) (Writes.cons (writes_write _)
    (Writes.single (writes_packItems this.m_items)))

theorem alloc_foldl (items : List ItemInfo) (n : ℕ) :
    n + (items.flatMap ItemInfo.encoding).length ≤
      items.foldl (fun alloc item => alloc + (item.getMemoryUsage + 20)) n := by
  induction items generalizing n with
  | nil => exact le_rfl
  | cons item items ih =>
    have hitem := item.encoding_length
    have htail := ih (n + (item.getMemoryUsage + 20))
    simp only [List.flatMap_cons, List.length_append, List.foldl_cons]
    omega

theorem encoding_length_le (this : ItemManager) : this.encoding.length ≤ this.alloc := by
  have hversion : (Pod.toBytes this.m_version).length = 2 := Pod.length_toBytes _
  have hcount : (Pod.toBytes this.m_itemCount).length = 4 := Pod.length_toBytes _
  have hitems := alloc_foldl this.m_items 6
  simp only [encoding, List.flatten_cons, List.flatten_nil, List.length_append, List.length_nil,
    hversion, hcount]
  unfold alloc
  omega

theorem encode_eq (this : ItemManager) : this.encode = some this.encoding := by
  obtain ⟨buffer, hrun, hwritten, -, -⟩ :=
    writes_alloc this.writes_packInto this.alloc this.encoding_length_le
  have hfile : some buffer.written = some this.encoding := congrArg some hwritten
  rw [encode, hrun]
  exact hfile

theorem encoding_append (this : ItemManager) (items later : List ItemInfo) :
    ({ this with m_items := items ++ later } : ItemManager).encoding =
      ({ this with m_items := items } : ItemManager).encoding ++
        later.flatMap ItemInfo.encoding := by
  simp only [encoding, List.flatMap_append, List.flatten_cons, List.flatten_nil, List.append_nil,
    List.append_assoc]

/-- Saving stays inside what it allocated: the buffer as a whole, and each record on the
way, which moves the writer on by at most its memory usage. -/
theorem encode_inside (this : ItemManager) :
    (∃ buffer, this.packInto (BinaryWriter.mk this.alloc) = some ((), buffer) ∧
      buffer.position ≤ this.alloc ∧ this.encode = some buffer.written) ∧
    ∀ items item later, this.m_items = items ++ item :: later →
      ∃ s s', ({ this with m_items := items } : ItemManager).packInto
          (BinaryWriter.mk this.alloc) = some ((), s) ∧
        item.pack s = some ((), s') ∧ s'.position ≤ s.position + item.getMemoryUsage ∧
        s'.position ≤ this.alloc := by
  have hfits := this.encoding_length_le
  constructor
  · obtain ⟨buffer, hrun, hwritten, hposition, -⟩ :=
      writes_alloc this.writes_packInto this.alloc hfits
    refine ⟨buffer, hrun, ?_, ?_⟩
    · rw [hposition]
      exact hfits
    · rw [encode_eq, hwritten]
  · intro items item later hitems
    have hencoding := this.encoding_append items (item :: later)
    rw [← hitems, List.flatMap_cons] at hencoding
    rw [hencoding, List.length_append, List.length_append] at hfits
    have hbefore := ({ this with m_items := items } : ItemManager).writes_packInto
    obtain ⟨s, hrun, -, hposition, hsize⟩ := writes_alloc hbefore this.alloc (by omega)
    have hroom : s.Room item.encoding.length := by
      rw [Sink.Room, hposition, hsize]
      omega
    obtain ⟨s', hpack, hadvance, hinside⟩ := item.pack_advance s hroom
    rw [hsize] at hinside
    exact ⟨s, s', hrun, hpack, hadvance, hinside⟩

/-! ### Loading what was saved -/

structure WellFormed (this : ItemManager) : Prop where
  count : this.m_itemCount.toNat = this.m_items.length
  few : this.m_items.length < 2 ^ 31
  ids : ∀ i (h : i < this.m_items.length), this.m_items[i].m_Id.toNat = i
  encodable : ∀ it ∈ this.m_items, it.Encodable

def SameFields (a b : ItemInfo) : Prop :=
  { a with m_hasExtra := b.m_hasExtra, m_defaultTexture := b.m_defaultTexture } = b

theorem sameFields_derived (it : ItemInfo) : SameFields it it.derived := rfl

/-- The records that a header announces: as many as it counts, or up to the first one
whose id is not its index. -/
def Announced : (n index : ℕ) → List ItemInfo → Prop
  | 0, _, items => items = []
  | _ + 1, _, [] => False
  | n + 1, index, item :: items =>
    if UInt32.ofNat index ≠ item.m_Id then items = [] else Announced n (index + 1) items

theorem reads_serializeItems {n index : ℕ} {items : List ItemInfo} (h : Announced n index items)
    (henc : ∀ it ∈ items, it.Encodable) :
    Reads (serializeItems n index) (items.flatMap ItemInfo.encoding)
      (items.map ItemInfo.derived) := by
  induction n generalizing index items with
  | zero =>
    have hnil : items = [] := h
    rw [hnil]
    exact Reads.pure []
  | succ n ih =>
    cases items with
    | nil => exact absurd h id
    | cons item items =>
      obtain ⟨hitem, hitems⟩ := List.forall_mem_cons.mp henc
      refine Reads.bind (item.reads_serialize hitem) ?_
      have hderived : item.derived.m_Id = item.m_Id := rfl
      rw [Announced] at h
      rw [hderived]
      by_cases hid : UInt32.ofNat index ≠ item.m_Id
      · rw [if_pos hid] at h ⊢
        rw [h]
        exact Reads.pure _
      · rw [if_neg hid] at h ⊢
        exact (ih h hitems).bind_pure (item.derived :: ·)

theorem announced_of_ids (items : List ItemInfo) (index : ℕ)
    (hids : ∀ i (h : i < items.length), items[i].m_Id = UInt32.ofNat (index + i)) :
    Announced items.length index items := by
  induction items generalizing index with
  | nil => rfl
  | cons item items ih =>
    have hid : item.m_Id = UInt32.ofNat index := hids 0 (Nat.zero_lt_succ _)
    rw [List.length_cons, Announced, if_neg (not_not.mpr hid.symm)]
    apply ih
    intro i hi
    have h := hids (i + 1) (Nat.succ_lt_succ hi)
    rwa [List.getElem_cons_succ, Nat.add_comm i 1, ← Nat.add_assoc] at h

/-- The manager holds the records its header announces, in the format's bounds. -/
structure Loadable (this : ItemManager) : Prop where
  announced : Announced this.m_itemCount.toNat 0 this.m_items
  encodable : ∀ it ∈ this.m_items, it.Encodable

/-- The header counts the records, and each has its index as id. -/
structure Consistent (this : ItemManager) : Prop where
  count : this.m_itemCount.toNat = this.m_items.length
  ids : ∀ i (h : i < this.m_items.length), this.m_items[i].m_Id.toNat = i
  encodable : ∀ it ∈ this.m_items, it.Encodable

theorem WellFormed.consistent {this : ItemManager} (h : this.WellFormed) : this.Consistent :=
  ⟨h.count, h.ids, h.encodable⟩

theorem encoding_ne_nil (this : ItemManager) : this.encoding ≠ [] := by
  have hversion : (Pod.toBytes this.m_version).length = 2 := Pod.length_toBytes _
  intro h
  have hlength := congrArg List.length h
  simp only [encoding, List.flatten_cons, List.length_append, hversion, List.length_nil] at hlength
  omega

theorem Consistent.loadable {this : ItemManager} (h : this.Consistent) : this.Loadable := by
  refine ⟨?_, h.encodable⟩
  rw [h.count]
  apply announced_of_ids
  intro i hi
  rw [Nat.zero_add]
  calc this.m_items[i].m_Id = UInt32.ofNat this.m_items[i].m_Id.toNat := UInt32.ofNat_toNat.symm
    _ = UInt32.ofNat i := congrArg UInt32.ofNat (h.ids i hi)

/-- Loading appends the records of the file to the items that are held. -/
theorem reads_serializeFrom (this m : ItemManager) (h : m.Loadable) :
    Reads this.serializeFrom m.encoding
      ⟨m.m_version, m.m_itemCount, this.m_items ++ m.m_items.map ItemInfo.derived⟩ := by
  refine Reads.cons (reads_read m.m_version) ?_
  refine Reads.cons (reads_read m.m_itemCount) ?_
  rw [List.flatten_cons, List.flatten_nil, List.append_nil]
  exact (reads_serializeItems h.announced h.encodable).bind_pure
    (fun items => (⟨m.m_version, m.m_itemCount, this.m_items ++ items⟩ : ItemManager))

theorem serialize_of_loadable (this m : ItemManager) (h : m.Loadable) (t : Bytes) :
    this.serialize (some (m.encoding ++ t)) = some
      ⟨true, ⟨m.m_version, m.m_itemCount, this.m_items ++ m.m_items.map ItemInfo.derived⟩,
        some ⟨m.encoding ++ t, m.encoding.length⟩⟩ := by
  have hrun := reads_mk (this.reads_serializeFrom m h) t
  have hne : (m.encoding ++ t).isEmpty = false := by
    rw [← Bool.not_eq_true, List.isEmpty_iff, List.append_eq_nil_iff]
    exact fun hnil => m.encoding_ne_nil hnil.1
  simp only [serialize, hne, hrun, Option.map_some]
  rfl

theorem serialize_encoding (this m : ItemManager) (h : m.Consistent) :
    this.serialize (some m.encoding) = some
      ⟨true, ⟨m.m_version, m.m_itemCount, this.m_items ++ m.m_items.map ItemInfo.derived⟩,
        some ⟨m.encoding, m.encoding.length⟩⟩ := by
  have hload := this.serialize_of_loadable m h.loadable []
  rwa [List.append_nil] at hload

/-- `items.dat`: loading what was saved gives the manager back and stops exactly
at the end of the file. -/
theorem serialize_encode (this : ItemManager) (h : this.WellFormed) :
    ∃ f manager br, this.encode = some f ∧
      ({} : ItemManager).serialize (some f) = some ⟨true, manager, some br⟩ ∧
      br.position = f.length ∧
      manager.m_version = this.m_version ∧ manager.m_itemCount = this.m_itemCount ∧
      List.Forall₂ SameFields this.m_items manager.m_items := by
  have hrun := ({} : ItemManager).serialize_encoding this h.consistent
  refine ⟨this.encoding, _, _, this.encode_eq, hrun, rfl, rfl, rfl, ?_⟩
  show List.Forall₂ SameFields this.m_items ([] ++ this.m_items.map ItemInfo.derived)
  rw [List.nil_append, List.forall₂_map_right_iff, List.forall₂_same]
  exact fun it _ => sameFields_derived it

def blankAndDirt : ItemManager where
  m_version := 11
  m_itemCount := 2
  m_items := [
    { m_Id := 0, m_name := ascii "Blank" },
    { m_Id := 1, m_name := ascii "Dirt", m_itemType := 3, m_spreadType := 2,
      m_texture := ⟨1, 2⟩, m_clothingType := 255, m_pet := { m_ability := ascii "dig" } }]

theorem wellFormed_blankAndDirt : blankAndDirt.WellFormed where
  count := rfl
  few := by decide
  ids := by decide
  encodable := by
    intro it hit
    simp only [blankAndDirt, List.mem_cons, List.not_mem_nil, or_false] at hit
    rcases hit with rfl | rfl
    · exact ⟨by decide, by decide⟩
    · exact ⟨by decide, by decide⟩

theorem serialize_encode_pair :
    ∃ f manager br, blankAndDirt.encode = some f ∧
      ({} : ItemManager).serialize (some f) = some ⟨true, manager, some br⟩ ∧
      br.position = f.length ∧
      manager.m_version = 11 ∧ manager.m_itemCount = 2 ∧
      List.Forall₂ SameFields blankAndDirt.m_items manager.m_items :=
  serialize_encode blankAndDirt wellFormed_blankAndDirt

/-! ### Saving what was loaded -/

theorem parses_serializeItems (n index : ℕ) :
    Parses (serializeItems n index) (fun items bs => bs = items.flatMap ItemInfo.encoding ∧
      Announced n index items ∧ ∀ it ∈ items, it.Encodable) := by
  induction n generalizing index with
  | zero => exact Parses.pure ⟨rfl, rfl, fun it hit => absurd hit List.not_mem_nil⟩
  | succ n ih =>
    refine Parses.bind ItemInfo.parses_serialize ?_
    intro item bs hitem
    obtain ⟨rfl, henc⟩ := hitem
    by_cases hid : UInt32.ofNat index ≠ item.m_Id
    · -- the unsupported record is kept, so its bytes are written again
      rw [if_pos hid]
      refine Parses.pure ⟨?_, ?_, ?_⟩
      · simp only [List.flatMap_cons, List.flatMap_nil]
      · rw [Announced, if_pos hid]
      · intro it hit
        rwa [List.mem_singleton.mp hit]
    · rw [if_neg hid]
      refine Parses.bind (ih (index + 1)) ?_
      intro items cs hitems
      obtain ⟨rfl, hannounced, hencs⟩ := hitems
      refine Parses.pure ⟨?_, ?_, List.forall_mem_cons.mpr ⟨henc, hencs⟩⟩
      · rw [List.append_nil, List.flatMap_cons]
      · rw [Announced, if_neg hid]
        exact hannounced

theorem parses_serializeFrom (this : ItemManager) :
    Parses this.serializeFrom (fun manager bs => ∃ m : ItemManager, m.Loadable ∧ bs = m.encoding ∧
      manager = ⟨m.m_version, m.m_itemCount, this.m_items ++ m.m_items⟩) := by
  refine parses_read_bind fun m_version => ?_
  refine parses_read_bind fun m_itemCount => ?_
  refine Parses.bind (parses_serializeItems _ _) ?_
  intro items bs hitems
  obtain ⟨rfl, hannounced, hencs⟩ := hitems
  refine Parses.pure ⟨⟨m_version, m_itemCount, items⟩, ⟨hannounced, hencs⟩, ?_, rfl⟩
  simp only [encoding, List.flatten_cons, List.flatten_nil]

/-- `items.dat`: saving right after loading, also where loading stopped early,
writes exactly the bytes the reader went over. -/
theorem encode_serialize (f : Bytes) (result : Bool) (manager : ItemManager) (br : BinaryReader)
    (h : ({} : ItemManager).serialize (some f) = some ⟨result, manager, some br⟩) :
    manager.encode = some (f.take br.position) := by
  simp only [serialize] at h
  split at h
  · simp at h
  · obtain ⟨⟨manager', br'⟩, hrun, heq⟩ := Option.map_eq_some_iff.mp h
    obtain ⟨-, rfl, hbr⟩ := Loaded.mk.inj heq
    obtain rfl := Option.some.inj hbr
    obtain ⟨⟨m, -, hbytes, rfl⟩, -⟩ := parses_mk (parses_serializeFrom {}) hrun
    rw [encode_eq, hbytes]
    rfl

def misnumbered : ItemManager := ⟨11, 2, [{ m_Id := 5, m_name := ascii "Rock" }]⟩

theorem encode_serialize_misnumbered :
    misnumbered.encode = some ((misnumbered.encoding ++ [1, 2, 3]).take 196) :=
  encode_serialize (misnumbered.encoding ++ [1, 2, 3]) true misnumbered
    ⟨misnumbered.encoding ++ [1, 2, 3], 196⟩ (by decide +kernel)

end ItemManager

end GrowServer
