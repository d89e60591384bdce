import GrowServer.Lib.Outcome
import GrowServer.Manager.ItemManager
import Mathlib.Data.List.AList

/-!
# PlayerItems (Player/PlayerItems.cpp)

The backpack: how many of each item a player holds.
-/

namespace GrowServer
open Outcome

structure PlayerItems where
  m_backpackSpace : UInt32 := 20
  m_bpItems : AList (fun _ : UInt16 => UInt8) := ∅

def itemFist : UInt16 := 18
def itemWrench : UInt16 := 32
def itemPickaxe : UInt16 := 98
def itemMyFirstWorldLock : UInt16 := 9640

namespace PlayerItems

def put (this : PlayerItems) (itemId : UInt16) (count : UInt8) : PlayerItems :=
  { this with m_bpItems := this.m_bpItems.insert itemId count }

def addItem (items : ItemManager) (this : PlayerItems) (itemId : UInt16) (count : UInt8) :
    Except Fault (Bool × PlayerItems) :=
  if count < 1 then return (false, this)
  else
    match this.m_bpItems.lookup itemId with
    | some held => do
      let pItem ← items.getItem itemId.toUInt32
      match pItem with
      | none => return (false, this)
      | some item =>
        if held.toNat + count.toNat > item.m_maxAmount.toNat then return (false, this)
        else return (true, this.put itemId (held + count))
    | none =>
      if this.m_bpItems.entries.length ≥ this.m_backpackSpace.toNat then return (false, this)
      else return (true, this.put itemId count)

def create (items : ItemManager) : Except Fault PlayerItems := do
  let (_, this) ← addItem items {} itemFist 1
  let (_, this) ← addItem items this itemWrench 1
  return this

section AddItem
variable {items : ItemManager} {this after : PlayerItems} {itemId : UInt16} {count : UInt8}

/-- What adding to a held item does with the item that was looked up. -/
def addHeld (this : PlayerItems) (itemId : UInt16) (held count : UInt8) :
    Option ItemInfo → Bool × PlayerItems
  | none => (false, this)
  | some item =>
    if held.toNat + count.toNat > item.m_maxAmount.toNat then (false, this)
    else (true, this.put itemId (held + count))

theorem addItem_none (hcount : ¬ count < 1) (h : this.m_bpItems.lookup itemId = none) :
    addItem items this itemId count = .ok
      (if this.m_bpItems.entries.length ≥ this.m_backpackSpace.toNat then (false, this)
        else (true, this.put itemId count)) := by
  rw [addItem, if_neg hcount]
  simp only [h]
  split
  · rfl
  · rfl

theorem addItem_some {held : UInt8} (hcount : ¬ count < 1)
    (h : this.m_bpItems.lookup itemId = some held) :
    addItem items this itemId count =
      (items.getItem itemId.toUInt32 >>= fun pItem =>
        .ok (this.addHeld itemId held count pItem)) := by
  rw [addItem, if_neg hcount]
  simp only [h]
  congr 1
  funext pItem
  cases pItem with
  | none => rfl
  | some item =>
    simp only [addHeld]
    split
    · rfl
    · rfl

/-- Adding an item fails only where it is held and is the id behind the item table. -/
theorem addItem_completesIff (items : ItemManager) (this : PlayerItems) (itemId : UInt16)
    (count : UInt8) (hcount : ¬ count < 1) :
    CompletesIff .tokenIndex (addItem items this itemId count)
      (itemId ∈ this.m_bpItems → items.m_items.length ≠ itemId.toNat) := by
  cases hheld : this.m_bpItems.lookup itemId with
  | none =>
    have hmem : itemId ∉ this.m_bpItems := AList.lookup_eq_none.mp hheld
    rw [addItem_none hcount hheld]
    exact (CompletesIff.ok _).congr (iff_of_true trivial fun h => absurd h hmem)
  | some held =>
    have hmem : itemId ∈ this.m_bpItems := by
      rw [← AList.lookup_isSome, hheld]
      rfl
    have hitem : CompletesIff .tokenIndex (items.getItem itemId.toUInt32)
        (items.m_items.length ≠ itemId.toNat) := fun _ => items.getItem_ok_iff itemId.toUInt32
    rw [addItem_some hcount hheld]
    refine (CompletesIff.bind hitem (Q := True) fun pItem _ => CompletesIff.ok _).congr ?_
    rw [and_true]
    exact ⟨fun h _ => h, fun h => h hmem⟩

theorem addHeld_cases (this : PlayerItems) (itemId : UInt16) (held count : UInt8)
    (pItem : Option ItemInfo) :
    this.addHeld itemId held count pItem = (false, this) ∨
      ∃ item, pItem = some item ∧ held.toNat + count.toNat ≤ item.m_maxAmount.toNat ∧
        this.addHeld itemId held count pItem = (true, this.put itemId (held + count)) := by
  cases pItem with
  | none => exact Or.inl rfl
  | some item =>
    by_cases hlarge : held.toNat + count.toNat > item.m_maxAmount.toNat
    · exact Or.inl (if_pos hlarge)
    · exact Or.inr ⟨item, rfl, by omega, if_neg hlarge⟩

/-- What a call that returns has done: nothing, a first copy stored where there is room
and without a look at the table, or a further copy that the table allows. -/
theorem addItem_cases {added : Bool} (h : addItem items this itemId count = .ok (added, after)) :
    (added = false ∧ after = this ∧ (1 ≤ count.toNat → this.m_bpItems.lookup itemId = none →
        this.m_backpackSpace.toNat ≤ this.m_bpItems.entries.length)) ∨
      (added = true ∧ after = this.put itemId count ∧ 1 ≤ count.toNat ∧
        this.m_bpItems.lookup itemId = none ∧
        this.m_bpItems.entries.length < this.m_backpackSpace.toNat) ∨
      (∃ held item, added = true ∧ after = this.put itemId (held + count) ∧ 1 ≤ count.toNat ∧
        this.m_bpItems.lookup itemId = some held ∧
        items.m_items[itemId.toNat]? = some item ∧
        held.toNat + count.toNat ≤ item.m_maxAmount.toNat) := by
  by_cases hcount : count < 1
  · have hlt := UInt8.lt_iff_toNat_lt.mp hcount
    rw [addItem, if_pos hcount] at h
    obtain ⟨rfl, rfl⟩ := Prod.mk.inj (Except.ok.inj h)
    exact Or.inl ⟨rfl, rfl, fun hone => absurd hone (Nat.not_le.mpr hlt)⟩
  have hone : 1 ≤ count.toNat := UInt8.le_iff_toNat_le.mp (UInt8.not_lt.mp hcount)
  cases hheld : this.m_bpItems.lookup itemId with
  | none =>
    rw [addItem_none hcount hheld] at h
    by_cases hfull : this.m_bpItems.entries.length ≥ this.m_backpackSpace.toNat
    · rw [if_pos hfull] at h
      obtain ⟨rfl, rfl⟩ := Prod.mk.inj (Except.ok.inj h)
      exact Or.inl ⟨rfl, rfl, fun _ _ => hfull⟩
    · rw [if_neg hfull] at h
      obtain ⟨rfl, rfl⟩ := Prod.mk.inj (Except.ok.inj h)
      exact Or.inr (Or.inl ⟨rfl, rfl, hone, rfl, by omega⟩)
  | some held =>
    rw [addItem_some hcount hheld] at h
    obtain ⟨pItem, hitem, h⟩ := bind_eq_ok.mp h
    rcases this.addHeld_cases itemId held count pItem with hnothing | ⟨item, rfl, hle, hstored⟩
    · rw [hnothing] at h
      obtain ⟨rfl, rfl⟩ := Prod.mk.inj (Except.ok.inj h)
      exact Or.inl ⟨rfl, rfl, fun _ hnone => absurd hnone (Option.some_ne_none held)⟩
    · rw [hstored] at h
      obtain ⟨rfl, rfl⟩ := Prod.mk.inj (Except.ok.inj h)
      have hentry := ItemManager.getItem_some hitem
      exact Or.inr (Or.inr ⟨held, item, rfl, rfl, hone, rfl, hentry, hle⟩)

theorem mem_addItem {added : Bool} {other : UInt16}
    (h : addItem items this itemId count = .ok (added, after)) (hne : other ≠ itemId) :
    other ∈ after.m_bpItems ↔ other ∈ this.m_bpItems := by
  have hput (n : UInt8) : other ∈ (this.put itemId n).m_bpItems ↔ other ∈ this.m_bpItems := by
    rw [put, AList.mem_insert]
    exact or_iff_right hne
  rcases addItem_cases h with ⟨-, rfl, -⟩ | ⟨-, rfl, -⟩ | ⟨held, item, -, rfl, -⟩
  · exact Iff.rfl
  · exact hput count
  · exact hput (held + count)

end AddItem

end PlayerItems

end GrowServer
