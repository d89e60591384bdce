import GrowServer.Lib.Assoc
import GrowServer.Lib.FailingRun
import GrowServer.Player.PlayerItems

/-!
# The inventory over calls of AddItem

The backpack of one player while items are added to it, with the ids that were
added. The two branches of `AddItem` check different things: a further copy of an
item is checked against the item table, a first copy is not. A call that reads behind
the item table ends the run.
-/

namespace GrowServer
open RunLogic Outcome

structure AddCall where
  itemId : UInt16
  count : UInt8
  deriving DecidableEq, Repr

namespace PlayerItems

/-- The id that is the number of items is not added a second time. -/
def AvoidsEnd (items : ItemManager) (this : PlayerItems) (call : AddCall) : Prop :=
  1 ≤ call.count.toNat → call.itemId ∈ this.m_bpItems →
    call.itemId.toNat ≠ items.m_items.length

theorem addItem_ok_iff (items : ItemManager) (this : PlayerItems) (call : AddCall) :
    (∃ result, addItem items this call.itemId call.count = .ok result) ↔
      AvoidsEnd items this call := by
  by_cases hcount : call.count < 1
  · have hzero : ¬ 1 ≤ call.count.toNat := Nat.not_le.mpr (UInt8.lt_iff_toNat_lt.mp hcount)
    rw [addItem, if_pos hcount]
    exact iff_of_true ⟨_, rfl⟩ fun hone => absurd hone hzero
  have hone : 1 ≤ call.count.toNat := UInt8.le_iff_toNat_le.mp (UInt8.not_lt.mp hcount)
  cases hheld : this.m_bpItems.lookup call.itemId with
  | none =>
    rw [addItem_none hcount hheld]
    exact iff_of_true ⟨_, rfl⟩ fun _ hmem => absurd hmem (AList.lookup_eq_none.mp hheld)
  | some held =>
    have hitem := items.getItem_ok_iff call.itemId.toUInt32
    rw [addItem_some hcount hheld]
    constructor
    · intro h _ _ hend
      obtain ⟨result, h⟩ := h
      obtain ⟨pItem, hget, -⟩ := bind_eq_ok.mp h
      exact hitem.mp ⟨pItem, hget⟩ hend.symm
    · intro havoids
      have hend := havoids hone (Assoc.mem_of_lookup hheld)
      obtain ⟨pItem, hget⟩ := hitem.mpr fun heq => hend heq.symm
      exact ⟨_, bind_eq_ok.mpr ⟨pItem, hget, rfl⟩⟩

end PlayerItems

structure Inventory where
  m_items : PlayerItems
  added : List UInt16 := []

namespace Inventory

def step (items : ItemManager) (this : Inventory) (call : AddCall) : Except Fault Inventory := do
  let (added, m_items) ← PlayerItems.addItem items this.m_items call.itemId call.count
  return { m_items, added := if added then call.itemId :: this.added else this.added }

/-- The item is in the item table and may be held in this number. -/
def Allowed (items : ItemManager) (itemId : UInt16) (count : UInt8) : Prop :=
  ∃ item, items.m_items[itemId.toNat]? = some item ∧ 1 ≤ count.toNat ∧
    count.toNat ≤ item.m_maxAmount.toNat

structure Kept (items : ItemManager) (this : Inventory) : Prop where
  slots : this.m_items.m_bpItems.entries.length ≤ this.m_items.m_backpackSpace.toNat
  counts : ∀ itemId ∈ this.added, ∃ count,
    this.m_items.m_bpItems.lookup itemId = some count ∧ Allowed items itemId count

def FirstCopy (this : Inventory) (call : AddCall) : Prop :=
  1 ≤ call.count.toNat ∧ this.m_items.m_bpItems.lookup call.itemId = none ∧
    this.m_items.m_bpItems.entries.length < this.m_items.m_backpackSpace.toNat

def ChecksFirstCopy (items : ItemManager) (this : Inventory) (call : AddCall) : Prop :=
  this.FirstCopy call → Allowed items call.itemId call.count

/-- The call returns, and what it leaves is the invariant's. -/
def StaysKept (items : ItemManager) (this : Inventory) (call : AddCall) : Prop :=
  ∃ after, step items this call = .ok after ∧ Kept items after

def Checks (items : ItemManager) (this : Inventory) (call : AddCall) : Prop :=
  ChecksFirstCopy items this call ∧ PlayerItems.AvoidsEnd items this.m_items call

section Step
variable {items : ItemManager} {this : Inventory} {call : AddCall}

def store (this : Inventory) (itemId : UInt16) (count : UInt8) : Inventory :=
  ⟨this.m_items.put itemId count, itemId :: this.added⟩

theorem kept_store {itemId : UInt16} {count : UInt8} (h : Kept items this)
    (hslots : (this.m_items.put itemId count).m_bpItems.entries.length ≤
      this.m_items.m_backpackSpace.toNat) :
    Kept items (this.store itemId count) ↔ Allowed items itemId count := by
  have hself : (this.m_items.put itemId count).m_bpItems.lookup itemId = some count :=
    AList.lookup_insert _
  constructor
  · intro hafter
    obtain ⟨stored, hlookup, hallowed⟩ := hafter.counts itemId (List.mem_cons_self ..)
    obtain rfl := Option.some.inj (hself.symm.trans hlookup)
    exact hallowed
  · intro hallowed
    refine ⟨hslots, ?_⟩
    intro other hother
    by_cases heq : other = itemId
    · rw [heq]
      exact ⟨count, hself, hallowed⟩
    · rcases List.mem_cons.mp hother with hnew | hold
      · exact absurd hnew heq
      · obtain ⟨held, hlookup, hheld⟩ := h.counts other hold
        refine ⟨held, ?_, hheld⟩
        exact (AList.lookup_insert_ne heq).trans hlookup

/-- What a call that returns can do: nothing, a first copy without a look at the table, or
a further copy that the table allows. -/
theorem step_cases {after : Inventory} (h : step items this call = .ok after) :
    (¬ this.FirstCopy call ∧ after = this) ∨
      (this.FirstCopy call ∧ after = this.store call.itemId call.count) ∨
      (¬ this.FirstCopy call ∧ call.itemId ∈ this.m_items.m_bpItems ∧
        ∃ count, after = this.store call.itemId count ∧ Allowed items call.itemId count) := by
  obtain ⟨⟨added, m_items⟩, hadd, hafter⟩ := bind_eq_ok.mp h
  rcases PlayerItems.addItem_cases hadd with ⟨rfl, rfl, hfull⟩ |
    ⟨rfl, rfl, hone, hnone, hroom⟩ | ⟨held, item, rfl, rfl, hone, hheld, hitem, hle⟩
  · left
    refine ⟨?_, (Except.ok.inj hafter).symm⟩
    intro hfirst
    have hspace := hfull hfirst.1 hfirst.2.1
    have hroom := hfirst.2.2
    omega
  · right; left
    exact ⟨⟨hone, hnone, hroom⟩, (Except.ok.inj hafter).symm⟩
  · right; right
    have hsum : (held + call.count).toNat = held.toNat + call.count.toNat := by
      have hmax := item.m_maxAmount.toNat_lt
      rw [UInt8.toNat_add]
      omega
    refine ⟨?_, Assoc.mem_of_lookup hheld, held + call.count, (Except.ok.inj hafter).symm,
      item, hitem, ?_, ?_⟩
    · intro hfirst
      have hnone : this.m_items.m_bpItems.lookup call.itemId = none := hfirst.2.1
      rw [hheld] at hnone
      cases hnone
    · omega
    · omega

theorem step_ok_iff (items : ItemManager) (this : Inventory) (call : AddCall) :
    (∃ after, step items this call = .ok after) ↔
      PlayerItems.AvoidsEnd items this.m_items call := by
  rw [← PlayerItems.addItem_ok_iff]
  constructor
  · intro h
    obtain ⟨after, h⟩ := h
    obtain ⟨result, hadd, -⟩ := bind_eq_ok.mp h
    exact ⟨result, hadd⟩
  · intro h
    obtain ⟨result, hadd⟩ := h
    exact ⟨_, bind_eq_ok.mpr ⟨result, hadd, rfl⟩⟩

theorem kept_step_iff {after : Inventory} (h : Kept items this)
    (hstep : step items this call = .ok after) :
    Kept items after ↔ ChecksFirstCopy items this call := by
  rcases step_cases hstep with ⟨hfirst, rfl⟩ | ⟨hfirst, rfl⟩ | ⟨hfirst, hmem, n, rfl, hn⟩
  · exact iff_of_true h fun hcopy => absurd hcopy hfirst
  · have hslots : (this.m_items.put call.itemId call.count).m_bpItems.entries.length ≤
        this.m_items.m_backpackSpace.toNat := by
      rw [PlayerItems.put, Assoc.length_insert_of_lookup_none _ hfirst.2.1]
      exact hfirst.2.2
    rw [kept_store h hslots]
    exact ⟨fun hallowed _ => hallowed, fun hchecks => hchecks hfirst⟩
  · have hslots : (this.m_items.put call.itemId n).m_bpItems.entries.length ≤
        this.m_items.m_backpackSpace.toNat := by
      rw [PlayerItems.put, Assoc.length_insert_of_mem _ hmem]
      exact h.slots
    rw [kept_store h hslots]
    exact iff_of_true hn fun hcopy => absurd hcopy hfirst

theorem staysKept_iff (h : Kept items this) (call : AddCall) :
    StaysKept items this call ↔ Checks items this call := by
  constructor
  · intro hstays
    obtain ⟨after, hstep, hafter⟩ := hstays
    exact ⟨(kept_step_iff h hstep).mp hafter, (step_ok_iff items this call).mp ⟨after, hstep⟩⟩
  · intro hchecks
    obtain ⟨hfirst, havoids⟩ := hchecks
    obtain ⟨after, hstep⟩ := (step_ok_iff items this call).mpr havoids
    exact ⟨after, hstep, (kept_step_iff h hstep).mpr hfirst⟩

end Step

/-- The inventory invariant, over every item table and every sequence of calls on
the backpack the constructor makes: every call returns and keeps it exactly when every
first copy is of an item in the table and within its stack limit, and no call adds to a
held item whose id is the number of items. -/
theorem along_kept_iff (items : ItemManager) (calls : List AddCall) :
    ∃ m_items, PlayerItems.create items = .ok m_items ∧
      (Along (untilFailure (step items)) (OnState (StaysKept items)) (.ok { m_items }) calls ↔
        Along (untilFailure (step items)) (OnState (Checks items)) (.ok { m_items }) calls) := by
  have hstart : Kept items { m_items := (({} : PlayerItems).put itemFist 1).put itemWrench 1 } := by
    refine ⟨by decide, ?_⟩
    intro itemId hadded
    cases hadded
  refine ⟨_, rfl, ?_⟩
  apply along_onState_iff (I := Kept items) calls hstart
  · intro before call after hkept hchecks hstep
    exact (kept_step_iff hkept hstep).mpr hchecks.1
  · intro before call hkept
    exact staysKept_iff hkept call

def oneMissingItem : List AddCall := [⟨2, 200⟩]

theorem not_along_kept :
    ∃ m_items, PlayerItems.create {} = .ok m_items ∧
      ¬ Along (untilFailure (step {})) (OnState (StaysKept {})) (.ok { m_items })
        oneMissingItem := by
  refine ⟨_, rfl, ?_⟩
  intro hkept
  obtain ⟨after, hstep, hafter⟩ := hkept.1 _ rfl
  obtain rfl := Except.ok.inj hstep
  obtain ⟨count, -, item, hitem, -⟩ := hafter.counts 2 (by decide)
  cases hitem

end Inventory

end GrowServer
