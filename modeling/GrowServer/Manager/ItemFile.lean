import GrowServer.Lib.Run
import GrowServer.Manager.ItemManager

/-!
# items.dat and the item manager (Manager/Item/ItemManager.cpp, main.cpp)

What a load that returned true says about the file, and the manager and its file
under any order of loading, saving and clearing. The header count and the item
vector are separate: loading sets the one and appends to the other, `Kill` clears
the vector only.
-/

namespace GrowServer
open LittleEndian ByteStream BinaryReader RunLogic

/-! ### What a load reports -/

namespace ItemManager

def NumberedRecords : (n index : ℕ) → BinaryReader → Prop
  | 0, _, _ => True
  | n + 1, index, br => ∀ item rest, ItemInfo.serialize br = some (item, rest) →
    item.m_Id = UInt32.ofNat index ∧ NumberedRecords n (index + 1) rest

/-- Every record the header announces has its index as id, as far as there are
records to read. -/
def Numbered (f : Bytes) : Prop :=
  ∀ m_version br m_itemCount records, read UInt16 (BinaryReader.mk f) = some (m_version, br) →
    read UInt32 br = some (m_itemCount, records) → NumberedRecords m_itemCount.toNat 0 records

/-- True for a file that is loaded in full, false for one that is not supported. -/
structure Reports (f : Bytes) (loaded : Loaded) : Prop where
  complete : loaded.result = true →
    loaded.manager.m_items.length = loaded.manager.m_itemCount.toNat ∧
      ∀ i < loaded.manager.m_itemCount.toNat,
        (loaded.manager.m_items[i]?).map ItemInfo.m_Id = some (UInt32.ofNat i)
  unsupported : ¬ Numbered f → loaded.result = false

theorem serializeItems_numbered (n index : ℕ) {br rest : BinaryReader} {items : List ItemInfo}
    (h : serializeItems n index br = some (items, rest)) (hnumbered : NumberedRecords n index br) :
    items.length = n ∧ ∀ i < n, (items[i]?).map ItemInfo.m_Id = some (UInt32.ofNat (index + i)) := by
  induction n generalizing index br rest items with
  | zero =>
    obtain ⟨rfl, -⟩ := pure_eq_some.mp h
    exact ⟨rfl, fun i hi => absurd hi (Nat.not_lt_zero i)⟩
  | succ n ih =>
    obtain ⟨item, next, hitem, hcont⟩ := bind_eq_some.mp h
    obtain ⟨hid, hnext⟩ := hnumbered item next hitem
    simp only [if_neg (not_not.mpr hid.symm)] at hcont
    obtain ⟨tail, last, htail, hpure⟩ := bind_eq_some.mp hcont
    obtain ⟨rfl, -⟩ := pure_eq_some.mp hpure
    obtain ⟨hlength, hids⟩ := ih (index + 1) htail hnext
    refine ⟨congrArg (· + 1) hlength, ?_⟩
    intro i hi
    cases i with
    | zero => exact congrArg some hid
    | succ i =>
      rw [List.getElem?_cons_succ, hids i (by omega)]
      congr 2
      omega

/-- A load of a fresh manager that returns reports what it found exactly when there
was nothing to report: it returns true for every file that is not empty. -/
theorem reports_iff (f : Bytes) (loaded : Loaded)
    (h : ({} : ItemManager).serialize (some f) = some loaded) :
    Reports f loaded ↔ Numbered f := by
  simp only [serialize] at h
  split at h
  · rename_i hempty
    obtain rfl := Option.some.inj h
    have hnumbered : Numbered f := by
      intro m_version br m_itemCount records hversion
      rw [List.isEmpty_iff.mp hempty] at hversion
      cases hversion
    refine iff_of_true ⟨?_, fun _ => rfl⟩ hnumbered
    intro hresult
    exact absurd hresult Bool.false_ne_true
  · obtain ⟨⟨manager, last⟩, hrun, rfl⟩ := Option.map_eq_some_iff.mp h
    constructor
    · intro hreports
      by_contra hbad
      cases hreports.unsupported hbad
    · intro hnumbered
      obtain ⟨m_version, br, hversion, hrest⟩ := bind_eq_some.mp hrun
      obtain ⟨m_itemCount, records, hcount, hitems⟩ := bind_eq_some.mp hrest
      obtain ⟨items, next, hloop, hpure⟩ := bind_eq_some.mp hitems
      obtain ⟨rfl, -⟩ := pure_eq_some.mp hpure
      obtain ⟨hlength, hids⟩ :=
        serializeItems_numbered _ 0 hloop (hnumbered _ _ _ _ hversion hcount)
      refine ⟨fun _ => ⟨hlength, ?_⟩, fun hbad => absurd hnumbered hbad⟩
      intro i hi
      have hid := hids i hi
      rwa [Nat.zero_add] at hid

theorem serialize_misnumbered :
    ({} : ItemManager).serialize (some misnumbered.encoding) =
      some ⟨true, misnumbered, some ⟨misnumbered.encoding, 196⟩⟩ := by decide +kernel

theorem reports_iff_misnumbered :
    Reports misnumbered.encoding ⟨true, misnumbered, some ⟨misnumbered.encoding, 196⟩⟩ ↔
      Numbered misnumbered.encoding :=
  reports_iff misnumbered.encoding _ serialize_misnumbered

theorem not_reports :
    ∃ loaded, ({} : ItemManager).serialize (some misnumbered.encoding) = some loaded ∧
      ¬ Reports misnumbered.encoding loaded := by
  refine ⟨_, serialize_misnumbered, ?_⟩
  intro h
  have hlength := (h.complete rfl).1
  revert hlength
  decide

/-! ### Loading inside the file -/

/-- The file begins with a header and all the records that it announces. -/
def HoldsAnnounced (file : Bytes) : Prop := ∃ m : ItemManager, m.Loadable ∧ m.encoding <+: file

/-- Every read of the load is inside the file, and a file too short is refused. -/
structure LoadsInside (this : ItemManager) (file : Bytes) : Prop where
  inside : ∃ loaded, this.serialize (some file) = some loaded
  refuses : ¬ HoldsAnnounced file →
    ∃ loaded, this.serialize (some file) = some loaded ∧ loaded.result = false

theorem holdsAnnounced_of_serialize {this : ItemManager} {file : Bytes} (hne : file ≠ [])
    {loaded : Loaded} (h : this.serialize (some file) = some loaded) : HoldsAnnounced file := by
  have hempty : file.isEmpty = false := by
    rwa [← Bool.not_eq_true, List.isEmpty_iff]
  simp only [serialize, hempty, Bool.false_eq_true, if_false] at h
  obtain ⟨⟨manager, br⟩, hrun, -⟩ := Option.map_eq_some_iff.mp h
  obtain ⟨⟨m, hloadable, hbytes, -⟩, -⟩ := parses_mk (parses_serializeFrom this) hrun
  refine ⟨m, hloadable, ?_⟩
  rw [← hbytes]
  exact List.take_prefix _ _

/-- Loading stays inside a file exactly when the file holds what it announces; no file
is refused for being too short. -/
theorem loadsInside_iff (this : ItemManager) (file : Bytes) (hne : file ≠ []) :
    LoadsInside this file ↔ HoldsAnnounced file := by
  constructor
  · intro h
    obtain ⟨loaded, hload⟩ := h.inside
    exact holdsAnnounced_of_serialize hne hload
  · intro h
    obtain ⟨m, hloadable, t, rfl⟩ := id h
    refine ⟨⟨_, this.serialize_of_loadable m hloadable t⟩, ?_⟩
    intro hshort
    exact absurd h hshort

theorem loadsInside_iff_pair :
    LoadsInside {} blankAndDirt.encoding ↔ HoldsAnnounced blankAndDirt.encoding :=
  loadsInside_iff {} blankAndDirt.encoding blankAndDirt.encoding_ne_nil

theorem not_loadsInside : ¬ LoadsInside {} [11] := by
  intro h
  obtain ⟨loaded, hload⟩ := h.inside
  cases hload

end ItemManager

/-! ### The manager and its file -/

inductive FileCall where
  | serialize
  | encode
  | kill
  deriving DecidableEq, Repr

structure ItemFile where
  manager : ItemManager
  file : Bytes

namespace ItemFile

-- a load that reads behind the file does not return
def step (this : ItemFile) : FileCall → ItemFile
  | .serialize =>
    match this.manager.serialize (some this.file) with
    | none => this
    | some loaded => { this with manager := loaded.manager }
  | .encode =>
    match this.manager.encode with
    | none => this
    | some file => { this with file }
  | .kill => { this with manager := this.manager.kill }

/-- The file is the one of `m`, with the count and the ids that belong to it. -/
def Describes (m : ItemManager) (file : Bytes) : Prop := m.Consistent ∧ file = m.encoding

/-- The call leaves a well-formed file, and a load the items of the file. -/
def StaysInStep (this : ItemFile) (call : FileCall) : Prop :=
  ∃ m, Describes m (step this call).file ∧
    (call = .serialize → (step this call).manager.m_items = m.m_items.map ItemInfo.derived)

def InOrder (this : ItemFile) : FileCall → Prop
  | .serialize => this.manager.m_items = []
  | .encode => this.manager.m_items.length = this.manager.m_itemCount.toNat
  | .kill => True

/-- The file is well-formed, its header is the one last read, and the items held are
the ones of the file or none. -/
structure Mirrors (this : ItemFile) (m : ItemManager) : Prop where
  describes : Describes m this.file
  version : this.manager.m_version = m.m_version
  count : this.manager.m_itemCount = m.m_itemCount
  items : this.manager.m_items = [] ∨ this.manager.m_items = m.m_items.map ItemInfo.derived

theorem mirrors_loaded {m : ItemManager} {f : Bytes} (h : Describes m f) :
    Mirrors ⟨⟨m.m_version, m.m_itemCount, [] ++ m.m_items.map ItemInfo.derived⟩, f⟩ m :=
  ⟨h, rfl, rfl, Or.inr rfl⟩

theorem step_serialize {this : ItemFile} {m : ItemManager} (h : Describes m this.file) :
    step this .serialize = { this with manager :=
      ⟨m.m_version, m.m_itemCount, this.manager.m_items ++ m.m_items.map ItemInfo.derived⟩ } := by
  have hload := this.manager.serialize_encoding m h.1
  rw [← h.2] at hload
  rw [step, hload]

theorem step_encode (this : ItemFile) :
    step this .encode = { this with file := this.manager.encoding } := by
  rw [step, this.manager.encode_eq]

theorem encoding_derived (items : List ItemInfo) :
    (items.map ItemInfo.derived).flatMap ItemInfo.encoding = items.flatMap ItemInfo.encoding :=
  List.flatMap_map ..

theorem encoding_inj {m m' : ItemManager} (h : m.encoding = m'.encoding) :
    m.m_itemCount = m'.m_itemCount ∧
      m.m_items.flatMap ItemInfo.encoding = m'.m_items.flatMap ItemInfo.encoding := by
  have hversion (n : ItemManager) : (Pod.toBytes n.m_version).length = 2 := Pod.length_toBytes _
  have hcount (n : ItemManager) : (Pod.toBytes n.m_itemCount).length = 4 := Pod.length_toBytes _
  simp only [ItemManager.encoding, List.flatten_cons, List.flatten_nil, List.append_nil] at h
  obtain ⟨-, hrest⟩ := List.append_inj h ((hversion m).trans (hversion m').symm)
  obtain ⟨hbytes, hrecords⟩ := List.append_inj hrest ((hcount m).trans (hcount m').symm)
  refine ⟨?_, hrecords⟩
  calc m.m_itemCount = Pod.ofBytes (Pod.toBytes m.m_itemCount) := (Pod.ofBytes_toBytes _).symm
    _ = Pod.ofBytes (Pod.toBytes m'.m_itemCount) := congrArg Pod.ofBytes hbytes
    _ = m'.m_itemCount := Pod.ofBytes_toBytes _

theorem length_eq_of_describes {m m' : ItemManager} {file : Bytes} (h : Describes m file)
    (h' : Describes m' file) : m.m_items.length = m'.m_items.length := by
  obtain ⟨hcount, -⟩ := encoding_inj (h.2.symm.trans h'.2)
  rw [← h.1.count, ← h'.1.count, hcount]

section Step
variable {this : ItemFile} {m : ItemManager}

theorem staysInStep_serialize_iff (h : Mirrors this m) :
    StaysInStep this .serialize ↔ this.manager.m_items = [] := by
  have hstep := step_serialize h.describes
  constructor
  · intro hstays
    obtain ⟨m', hdescribes, hitems⟩ := hstays
    rw [hstep] at hdescribes hitems
    have hlength := congrArg List.length (hitems rfl)
    have hsame := length_eq_of_describes h.describes hdescribes
    simp only [List.length_append, List.length_map] at hlength
    exact List.eq_nil_of_length_eq_zero (by omega)
  · intro hnil
    refine ⟨m, ?_, fun _ => ?_⟩
    · rw [hstep]
      exact h.describes
    · rw [hstep, hnil]
      rfl

/-- As many items as the header counts are held only where the file has them all. -/
theorem encoding_of_mirrors (h : Mirrors this m)
    (hlength : this.manager.m_items.length = this.manager.m_itemCount.toNat) :
    this.manager.encoding = m.encoding := by
  have hcount := h.describes.1.count
  have hrecords : this.manager.m_items.flatMap ItemInfo.encoding =
      m.m_items.flatMap ItemInfo.encoding := by
    rcases h.items with hnil | hheld
    · have hempty : m.m_items = [] := by
        apply List.eq_nil_of_length_eq_zero
        rw [← hcount, ← h.count, ← hlength, hnil]
        rfl
      rw [hnil, hempty]
    · rw [hheld, encoding_derived]
  rw [ItemManager.encoding, ItemManager.encoding, h.version, h.count, hrecords]

theorem staysInStep_encode_iff (h : Mirrors this m) :
    StaysInStep this .encode ↔
      this.manager.m_items.length = this.manager.m_itemCount.toNat := by
  have hstep := step_encode this
  constructor
  · intro hstays
    obtain ⟨m', hdescribes, -⟩ := hstays
    rw [hstep] at hdescribes
    obtain ⟨hcount', hrecords⟩ := encoding_inj hdescribes.2
    rcases h.items with hnil | hheld
    · -- an empty list of items was written under the header that was read
      cases hitems : m'.m_items with
      | nil => rw [hcount', hdescribes.1.count, hitems, hnil]
      | cons item items =>
        have hbytes := item.encoding_length
        have hbytesLength := congrArg List.length hrecords
        rw [hnil, hitems, List.flatMap_nil, List.flatMap_cons, List.length_append] at hbytesLength
        have husage : 8 ≤ item.getMemoryUsage := by
          unfold ItemInfo.getMemoryUsage
          omega
        simp only [List.length_nil] at hbytesLength
        omega
    · rw [hheld, List.length_map, h.count, h.describes.1.count]
  · intro hlength
    refine ⟨m, ?_, nofun⟩
    rw [hstep]
    exact ⟨h.describes.1, encoding_of_mirrors h hlength⟩

theorem staysInStep_iff (h : Mirrors this m) (call : FileCall) :
    StaysInStep this call ↔ InOrder this call := by
  cases call with
  | serialize => exact staysInStep_serialize_iff h
  | encode => exact staysInStep_encode_iff h
  | kill => exact iff_of_true ⟨m, h.describes, nofun⟩ trivial

theorem mirrors_step (h : Mirrors this m) {call : FileCall} (horder : InOrder this call) :
    Mirrors (step this call) m := by
  cases call with
  | serialize =>
    have hnil : this.manager.m_items = [] := horder
    rw [step_serialize h.describes, hnil]
    exact ⟨h.describes, rfl, rfl, Or.inr rfl⟩
  | encode =>
    rw [step_encode, encoding_of_mirrors h horder]
    exact ⟨⟨h.describes.1, rfl⟩, h.version, h.count, h.items⟩
  | kill => exact ⟨h.describes, h.version, h.count, Or.inl rfl⟩

end Step

/-- A manager loaded once from a well-formed file stays in step with it over a run
exactly when it is loaded only with nothing held, and saved only with as many
items held as its count says. -/
theorem along_staysInStep_iff (f : Bytes) (hf : ∃ m, Describes m f) (calls : List FileCall) :
    ∃ loaded, ({} : ItemManager).serialize (some f) = some loaded ∧ loaded.result = true ∧
      (Along step StaysInStep ⟨loaded.manager, f⟩ calls ↔
        Along step InOrder ⟨loaded.manager, f⟩ calls) := by
  obtain ⟨m, hdescribes⟩ := hf
  have hload := ({} : ItemManager).serialize_encoding m hdescribes.1
  rw [← hdescribes.2] at hload
  refine ⟨_, hload, rfl, ?_⟩
  exact along_iff (I := fun this => Mirrors this m) (mirrors_loaded hdescribes)
    (fun _ _ h _ horder => mirrors_step h horder) (fun _ call h _ => staysInStep_iff h call)
    (along_true _ _)

theorem describes_blankAndDirt :
    Describes ItemManager.blankAndDirt ItemManager.blankAndDirt.encoding :=
  ⟨ItemManager.wellFormed_blankAndDirt.consistent, rfl⟩

theorem along_staysInStep_pair :
    ∃ loaded, ({} : ItemManager).serialize (some ItemManager.blankAndDirt.encoding) =
        some loaded ∧ loaded.result = true ∧
      (Along step StaysInStep ⟨loaded.manager, ItemManager.blankAndDirt.encoding⟩
          [.kill, .serialize, .encode] ↔
        Along step InOrder ⟨loaded.manager, ItemManager.blankAndDirt.encoding⟩
          [.kill, .serialize, .encode]) :=
  along_staysInStep_iff _ ⟨_, describes_blankAndDirt⟩ [.kill, .serialize, .encode]

theorem not_along_staysInStep :
    ∃ loaded, ({} : ItemManager).serialize (some ItemManager.blankAndDirt.encoding) =
        some loaded ∧
      ¬ Along step StaysInStep ⟨loaded.manager, ItemManager.blankAndDirt.encoding⟩ [.serialize] := by
  have hload := ({} : ItemManager).serialize_encoding _ describes_blankAndDirt.1
  refine ⟨_, hload, ?_⟩
  intro h
  have hempty := (staysInStep_serialize_iff (mirrors_loaded describes_blankAndDirt)).mp h.1
  cases hempty

end ItemFile

end GrowServer
