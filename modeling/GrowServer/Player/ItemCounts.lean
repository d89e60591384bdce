import GrowServer.Player.Inventory

/-!
# Counts and lookups over calls of AddItem (Player/PlayerItems.cpp)

A sequence of calls on any backpack, with what each call returned. A call looks up one
item of the table, the one it adds, unless its id is the number of items.
-/

namespace GrowServer
open RunLogic Outcome

namespace PlayerItems

def countOf (this : PlayerItems) (itemId : UInt16) : ℕ :=
  ((this.m_bpItems.lookup itemId).map UInt8.toNat).getD 0

def addItems (items : ItemManager) :
    PlayerItems → List AddCall → Except Fault (List Bool × PlayerItems)
  | this, [] => return ([], this)
  | this, call :: calls => do
    let (added, this) ← addItem items this call.itemId call.count
    let (results, this) ← addItems items this calls
    return (added :: results, this)

/-- What one call adds of an item, given what it returned. -/
def addedBy (itemId : UInt16) (call : AddCall) (added : Bool) : ℕ :=
  if call.itemId = itemId ∧ added then call.count.toNat else 0

def totalAdded (itemId : UInt16) (calls : List AddCall) (results : List Bool) : ℕ :=
  (List.zipWith (addedBy itemId) calls results).sum

section AddItem
variable {items : ItemManager} {this after : PlayerItems} {itemId : UInt16} {count : UInt8}

theorem lookup_put_of_ne (this : PlayerItems) {itemId other : UInt16} (count : UInt8)
    (h : other ≠ itemId) :
    (this.put itemId count).m_bpItems.lookup other = this.m_bpItems.lookup other :=
  AList.lookup_insert_ne h

theorem countOf_put (this : PlayerItems) (itemId other : UInt16) (count : UInt8) :
    (this.put itemId count).countOf other =
      if itemId = other then count.toNat else this.countOf other := by
  by_cases h : itemId = other
  · rw [if_pos h, ← h, countOf, put, AList.lookup_insert]
    rfl
  · rw [if_neg h, countOf, lookup_put_of_ne this count (fun heq => h heq.symm)]
    rfl

/-- A call that returns false changes nothing, and no call another item. -/
theorem addItem_frame {added : Bool} (h : addItem items this itemId count = .ok (added, after)) :
    (added = false → after = this) ∧ ∀ other, other ≠ itemId →
      after.m_bpItems.lookup other = this.m_bpItems.lookup other := by
  rcases addItem_cases h with ⟨-, rfl, -⟩ | ⟨rfl, rfl, -⟩ | ⟨held, item, rfl, rfl, -⟩
  · exact ⟨fun _ => rfl, fun other _ => rfl⟩
  · refine ⟨?_, fun other hother => lookup_put_of_ne this count hother⟩
    intro hfalse
    cases hfalse
  · refine ⟨?_, fun other hother => lookup_put_of_ne this _ hother⟩
    intro hfalse
    cases hfalse

/-- One call adds its count, unless it returns false; the 8-bit sum does not wrap, as
the table allows no more than it can hold. -/
theorem countOf_addItem {added : Bool} (h : addItem items this itemId count = .ok (added, after))
    (other : UInt16) :
    after.countOf other = this.countOf other + addedBy other ⟨itemId, count⟩ added := by
  rcases addItem_cases h with ⟨rfl, rfl, -⟩ | ⟨rfl, rfl, -, hnone, -⟩ |
    ⟨held, item, rfl, rfl, -, hheld, -, hle⟩
  · simp [addedBy]
  · rw [countOf_put, addedBy]
    by_cases heq : itemId = other
    · subst heq
      simp [countOf, hnone]
    · simp [heq]
  · have hsum : (held + count).toNat = held.toNat + count.toNat := by
      have hmax := item.m_maxAmount.toNat_lt
      rw [UInt8.toNat_add]
      omega
    rw [countOf_put, addedBy]
    by_cases heq : itemId = other
    · subst heq
      simp [countOf, hheld, hsum]
    · simp [heq]

theorem countOf_addItems {calls : List AddCall} {results : List Bool}
    (h : addItems items this calls = .ok (results, after)) (other : UInt16) :
    results.length = calls.length ∧
      after.countOf other = this.countOf other + totalAdded other calls results := by
  induction calls generalizing this results with
  | nil =>
    obtain ⟨rfl, rfl⟩ := Prod.mk.inj (Except.ok.inj h)
    exact ⟨rfl, rfl⟩
  | cons call calls ih =>
    obtain ⟨⟨added, first⟩, hadd, h⟩ := bind_eq_ok.mp h
    obtain ⟨⟨rest, last⟩, hrest, h⟩ := bind_eq_ok.mp h
    obtain ⟨rfl, rfl⟩ := Prod.mk.inj (Except.ok.inj h)
    obtain ⟨hlength, hcount⟩ := ih hrest
    have hfirst : first.countOf other = this.countOf other + addedBy other call added :=
      countOf_addItem hadd other
    constructor
    · simp only [List.length_cons, hlength]
    · rw [totalAdded, List.zipWith_cons_cons, List.sum_cons, ← totalAdded]
      omega

theorem addItems_ok (this : PlayerItems) {calls : List AddCall}
    (h : ∀ call ∈ calls, items.m_items.length ≠ call.itemId.toNat) :
    ∃ result, addItems items this calls = .ok result := by
  induction calls generalizing this with
  | nil => exact ⟨_, rfl⟩
  | cons call calls ih =>
    obtain ⟨hcall, hcalls⟩ := List.forall_mem_cons.mp h
    obtain ⟨⟨added, first⟩, hadd⟩ :=
      (addItem_ok_iff items this call).mpr fun _ _ hend => hcall hend.symm
    obtain ⟨⟨results, last⟩, hrest⟩ := ih first hcalls
    exact ⟨_, bind_eq_ok.mpr ⟨_, hadd, bind_eq_ok.mpr ⟨_, hrest, rfl⟩⟩⟩

end AddItem

/-- Counts are conserved: over any sequence of calls on any backpack, each count grows by
what the calls on that item that returned true add up to, and no single call does more. -/
theorem addItems_conserves (items : ItemManager) (this : PlayerItems) (calls : List AddCall)
    (hids : ∀ call ∈ calls, items.m_items.length ≠ call.itemId.toNat) :
    (∃ results after, addItems items this calls = .ok (results, after) ∧
      results.length = calls.length ∧
      ∀ itemId, after.countOf itemId = this.countOf itemId + totalAdded itemId calls results) ∧
    ∀ (before after : PlayerItems) (call : AddCall) (added : Bool),
      addItem items before call.itemId call.count = .ok (added, after) →
        (added = false → after = before) ∧ ∀ other, other ≠ call.itemId →
          after.m_bpItems.lookup other = before.m_bpItems.lookup other := by
  constructor
  · obtain ⟨⟨results, after⟩, hcalls⟩ := addItems_ok this hids
    refine ⟨results, after, hcalls, (countOf_addItems hcalls 0).1, ?_⟩
    intro itemId
    exact (countOf_addItems hcalls itemId).2
  · intro before after call added hadd
    exact addItem_frame hadd

def threeItems : ItemManager where
  m_itemCount := 3
  m_items := [{ m_Id := 0 }, { m_Id := 1 }, { m_Id := 2, m_maxAmount := 200 }]

theorem addItems_conserves_three :
    (∃ results after, addItems threeItems {} [⟨2, 150⟩, ⟨2, 100⟩, ⟨2, 50⟩] = .ok (results, after) ∧
      results.length = 3 ∧ ∀ itemId, after.countOf itemId = PlayerItems.countOf {} itemId +
        totalAdded itemId [⟨2, 150⟩, ⟨2, 100⟩, ⟨2, 50⟩] results) ∧
    ∀ (before after : PlayerItems) (call : AddCall) (added : Bool),
      addItem threeItems before call.itemId call.count = .ok (added, after) →
        (added = false → after = before) ∧ ∀ other, other ≠ call.itemId →
          after.m_bpItems.lookup other = before.m_bpItems.lookup other :=
  addItems_conserves threeItems {} [⟨2, 150⟩, ⟨2, 100⟩, ⟨2, 50⟩] (by decide)

end PlayerItems

/-! ### Which entries are looked up -/

namespace ItemManager

/-- Each item has its position as id, as loading checks. -/
def Indexed (this : ItemManager) : Prop :=
  ∀ i (h : i < this.m_items.length), this.m_items[i].m_Id.toNat = i

def itemWithId (this : ItemManager) (itemId : ℕ) : Option ItemInfo :=
  this.m_items.find? fun item => item.m_Id.toNat = itemId

structure FindsExactly (this : ItemManager) (itemId : UInt32) : Prop where
  found : itemId.toNat < this.m_items.length →
    ∃ item ∈ this.m_items, item.m_Id = itemId ∧ this.getItem itemId = .ok (some item)
  missing : this.m_items.length ≤ itemId.toNat → this.getItem itemId = .ok none

section Indexed
variable {this : ItemManager}

theorem itemWithId_eq (h : this.Indexed) (itemId : ℕ) :
    this.itemWithId itemId = this.m_items[itemId]? := by
  by_cases hlt : itemId < this.m_items.length
  · rw [itemWithId, List.getElem?_eq_getElem hlt, List.find?_eq_some_iff_getElem]
    refine ⟨decide_eq_true (h itemId hlt), itemId, hlt, rfl, ?_⟩
    intro j hj
    have hid := h j (hj.trans hlt)
    simp only [hid, Bool.not_eq_true', decide_eq_false_iff_not]
    omega
  · rw [itemWithId, List.getElem?_eq_none (by omega), List.find?_eq_none]
    intro item hitem
    obtain ⟨j, hj, rfl⟩ := List.mem_iff_getElem.mp hitem
    have hid := h j hj
    simp only [hid, decide_eq_true_eq]
    omega

theorem getItem_of_ne {itemId : UInt32} (hne : itemId.toNat ≠ this.m_items.length) :
    this.getItem itemId = .ok this.m_items[itemId.toNat]? := by
  rw [getItem]
  by_cases hlarge : itemId.toNat > this.m_items.length
  · rw [if_pos hlarge, List.getElem?_eq_none (by omega)]
  · rw [if_neg hlarge, List.getElem?_eq_getElem (by omega)]

theorem findsExactly_iff (h : this.Indexed) (itemId : UInt32) :
    this.FindsExactly itemId ↔ itemId.toNat ≠ this.m_items.length := by
  constructor
  · intro hexact heq
    have hok : ∃ item, this.getItem itemId = .ok item := ⟨none, hexact.missing heq.ge⟩
    exact (this.getItem_ok_iff itemId).mp hok heq.symm
  · intro hne
    have hget := getItem_of_ne hne
    constructor
    · intro hlt
      refine ⟨this.m_items[itemId.toNat], List.getElem_mem hlt, ?_, ?_⟩
      · exact UInt32.toNat_inj.mp (h itemId.toNat hlt)
      · rw [hget, List.getElem?_eq_getElem hlt]
    · intro hle
      rw [hget, List.getElem?_eq_none hle]

end Indexed

end ItemManager

namespace PlayerItems

/-- AddItem as a function of one item of the table. -/
def addItemBy (pItem : Option ItemInfo) (this : PlayerItems) (itemId : UInt16) (count : UInt8) :
    Bool × PlayerItems :=
  if count < 1 then (false, this)
  else
    match this.m_bpItems.lookup itemId with
    | some held => this.addHeld itemId held count pItem
    | none =>
      if this.m_bpItems.entries.length ≥ this.m_backpackSpace.toNat then (false, this)
      else (true, this.put itemId count)

def addCall (items : ItemManager) (this : PlayerItems) (call : AddCall) :
    Except Fault PlayerItems :=
  (addItem items this call.itemId call.count).map Prod.snd

/-- All the call takes from the table is the item it adds. -/
def ConsultsOwn (items : ItemManager) (this : PlayerItems) (call : AddCall) : Prop :=
  addItem items this call.itemId call.count =
    .ok (addItemBy (items.itemWithId call.itemId.toNat) this call.itemId call.count)

theorem consultsOwn_iff {items : ItemManager} (hids : items.Indexed) (this : PlayerItems)
    (call : AddCall) : ConsultsOwn items this call ↔ AvoidsEnd items this call := by
  obtain ⟨itemId, count⟩ := call
  rw [ConsultsOwn, AvoidsEnd, ItemManager.itemWithId_eq hids, addItemBy]
  by_cases hcount : count < 1
  · have hzero : ¬ 1 ≤ count.toNat := Nat.not_le.mpr (UInt8.lt_iff_toNat_lt.mp hcount)
    rw [if_pos hcount, addItem, if_pos hcount]
    exact iff_of_true rfl fun hone => absurd hone hzero
  have hone : 1 ≤ count.toNat := UInt8.le_iff_toNat_le.mp (UInt8.not_lt.mp hcount)
  rw [if_neg hcount]
  cases hheld : this.m_bpItems.lookup itemId with
  | none =>
    rw [addItem_none hcount hheld]
    exact iff_of_true rfl fun _ hmem => absurd hmem (AList.lookup_eq_none.mp hheld)
  | some held =>
    rw [addItem_some hcount hheld]
    constructor
    · intro hcall _ _ hend
      obtain ⟨pItem, hget, -⟩ := bind_eq_ok.mp hcall
      exact (items.getItem_ok_iff itemId.toUInt32).mp ⟨pItem, hget⟩ hend.symm
    · intro havoids
      have hne : itemId.toUInt32.toNat ≠ items.m_items.length :=
        havoids hone (Assoc.mem_of_lookup hheld)
      rw [ItemManager.getItem_of_ne hne]
      rfl

/-- On a table indexed by its ids, a lookup is exact for every id but the number of
items; and over every sequence of calls on any backpack, AddItem reads only the entry of
what it adds, exactly when no call adds a held item of that id. -/
theorem itemLookup_exact_iff (items : ItemManager) (hids : items.Indexed) :
    (∀ itemId, items.FindsExactly itemId ↔ itemId.toNat ≠ items.m_items.length) ∧
    ∀ (this : PlayerItems) (calls : List AddCall),
      Along (untilFailure (addCall items)) (OnState (ConsultsOwn items)) (.ok this) calls ↔
        Along (untilFailure (addCall items)) (OnState (AvoidsEnd items)) (.ok this) calls := by
  constructor
  · intro itemId
    exact ItemManager.findsExactly_iff hids itemId
  · intro this calls
    apply along_onState_iff (I := fun _ => True) calls trivial
    · intro _ _ _ _ _ _
      trivial
    · intro before call _
      exact consultsOwn_iff hids before call

theorem indexed_threeItems : threeItems.Indexed := by
  unfold ItemManager.Indexed
  decide

theorem itemLookup_exact_iff_three :
    threeItems.FindsExactly 2 ↔ (2 : UInt32).toNat ≠ 3 :=
  (itemLookup_exact_iff threeItems indexed_threeItems).1 2

theorem not_findsExactly_three : ¬ threeItems.FindsExactly 3 := by
  intro h
  have hnone := h.missing (by decide)
  have houtside : threeItems.getItem 3 = .error .itemIndex := rfl
  rw [houtside] at hnone
  cases hnone

end PlayerItems

end GrowServer
