import GrowServer.Lib.Run
import GrowServer.Manager.Database.PlayerTable
import GrowServer.Protocol.TankInfo

/-!
# The players table (Manager/Database/Table/PlayerTable.cpp, growtopia_server.sql)

The rows `IsAccountExist` selects and the row `Insert` appends. How MySQL compares
two texts of a column is the collation, which is a parameter; a comparison with a
column that is NULL does not select the row.
-/

namespace GrowServer
open LittleEndian RunLogic

abbrev Collation := Bytes → Bytes → Bool

/-- A row, with the columns that are read or written; all of them but the id are
NULL by default. -/
structure PlayerDB where
  id : ℕ
  requestedName : Option Bytes := none
  tankIdName : Option Bytes := none
  tankIdPass : Option Bytes := none
  rawName : Option Bytes := none
  deriving DecidableEq, Repr

structure PlayersTable where
  rows : List PlayerDB := []
  autoIncrement : ℕ := 1
  deriving DecidableEq, Repr

namespace PlayersTable
variable (collation : Collation)

def columnEq (column : Option Bytes) (text : Bytes) : Bool :=
  column.any fun value => collation value text

def columnNe (column : Option Bytes) (text : Bytes) : Bool :=
  column.any fun value => !collation value text

def isAccountExist (this : PlayersTable) (name : Bytes) : Bool :=
  this.rows.any fun row =>
    columnEq collation row.rawName name && columnNe collation row.tankIdName []

def insertInto (this : PlayersTable) (row : ℕ → PlayerDB) : ℕ × PlayersTable :=
  (this.autoIncrement,
    { rows := this.rows ++ [row this.autoIncrement], autoIncrement := this.autoIncrement + 1 })

/-- PlayerTable.cpp:19-41. -/
def insert (this : PlayersTable) (det : TankInfo) : UInt32 × PlayersTable :=
  if this.isAccountExist collation det.m_tankIDName then (0, this)
  else
    let (id, this) := this.insertInto fun id =>
      { id
        requestedName := some []
        tankIdName := some det.m_tankIDName
        tankIdPass := some det.m_tankIDPass }
    (UInt32.ofNat id, this)

def answers (this : PlayersTable) (isValid : Bool) : PlayerTable where
  isAccountExist := this.isAccountExist collation
  isValid := isValid

/-- Some row is filed under the name, and has a GrowID. -/
def Listed (this : PlayersTable) (name : Bytes) : Prop :=
  ∃ row ∈ this.rows, ∃ rawName tankIdName, row.rawName = some rawName ∧
    row.tankIdName = some tankIdName ∧ collation rawName name ∧ ¬ collation tankIdName []

variable {collation}

theorem isAccountExist_iff (this : PlayersTable) (name : Bytes) :
    this.isAccountExist collation name ↔ this.Listed collation name := by
  unfold isAccountExist Listed columnEq columnNe
  rw [List.any_eq_true]
  refine exists_congr fun row => and_congr_right fun _ => ?_
  cases row.rawName with
  | none => simp
  | some rawName =>
    cases row.tankIdName with
    | none => simp
    | some tankIdName => simp

theorem insert_of_listed {this : PlayersTable} {det : TankInfo}
    (h : this.Listed collation det.m_tankIDName) : this.insert collation det = (0, this) :=
  if_pos ((this.isAccountExist_iff _).mpr h)

/-- The appended row has no `RawName`, so no name is looked up under it. -/
theorem insert_of_not_listed {this : PlayersTable} {det : TankInfo}
    (h : ¬ this.Listed collation det.m_tankIDName) :
    (this.insert collation det).2.rows.length = this.rows.length + 1 ∧
      ∀ name, (this.insert collation det).2.isAccountExist collation name =
        this.isAccountExist collation name := by
  have hexist : ¬ this.isAccountExist collation det.m_tankIDName = true := fun hexist =>
    h ((this.isAccountExist_iff _).mp hexist)
  rw [insert, if_neg hexist]
  refine ⟨List.length_append, fun name => ?_⟩
  simp only [insertInto, isAccountExist, List.any_append, List.any_cons, List.any_nil]
  exact Bool.or_false _

end PlayersTable

/-- The table under calls of `Insert`, with the names of the rows they added. -/
structure InsertHistory where
  table : PlayersTable
  added : List Bytes := []

namespace InsertHistory
variable (collation : Collation)

def step (this : InsertHistory) (det : TankInfo) : InsertHistory :=
  let table := (this.table.insert collation det).2
  { table
    added := if table.rows.length = this.table.rows.length then this.added
      else det.m_tankIDName :: this.added }

structure Enforces (this : InsertHistory) (det : TankInfo) : Prop where
  refuses : det.m_tankIDName ∈ this.added → this.table.insert collation det = (0, this.table)
  found : ∀ name ∈ (step collation this det).added,
    (step collation this det).table.isAccountExist collation name
  once : (step collation this det).added.Nodup

variable {collation}

theorem step_of_listed {this : InsertHistory} {det : TankInfo}
    (h : this.table.Listed collation det.m_tankIDName) : step collation this det = this := by
  rw [step, PlayersTable.insert_of_listed h]
  exact congrArg (InsertHistory.mk this.table) (if_pos rfl)

theorem enforces_iff (table : PlayersTable) (det : TankInfo) :
    Enforces collation { table } det ↔ table.Listed collation det.m_tankIDName := by
  constructor
  · intro h
    by_contra hlisted
    obtain ⟨hlength, hsame⟩ := PlayersTable.insert_of_not_listed hlisted
    have hadded : det.m_tankIDName ∈ (step collation { table } det).added := by
      have hmore : (table.insert collation det).2.rows.length ≠ table.rows.length := by omega
      show det.m_tankIDName ∈ if (table.insert collation det).2.rows.length = table.rows.length
        then [] else [det.m_tankIDName]
      rw [if_neg hmore]
      exact List.mem_cons_self ..
    have hfound := h.found _ hadded
    rw [show (step collation { table } det).table = (table.insert collation det).2 from rfl,
      hsame, PlayersTable.isAccountExist_iff] at hfound
    exact hlisted hfound
  · intro h
    have hstep : step collation { table } det = { table } := step_of_listed h
    refine ⟨fun _ => PlayersTable.insert_of_listed h, ?_, ?_⟩
    · intro name hname
      rw [hstep] at hname
      cases hname
    · rw [hstep]
      exact List.nodup_nil

/-- The table enforces its uniqueness check over a run of `Insert` calls exactly when
the run adds no row, as every name in it is listed in the table before. -/
theorem along_enforces_iff (collation : Collation) (table : PlayersTable) (dets : List TankInfo) :
    Along (step collation) (Enforces collation) { table } dets ↔
      ∀ det ∈ dets, table.Listed collation det.m_tankIDName :=
  along_fixed_iff (C := fun this det => this.table.Listed collation det.m_tankIDName)
    (fun _ h => step_of_listed h) (enforces_iff table)

def bob : TankInfo := { m_tankIDName := ascii "bob1", m_tankIDPass := ascii "12345678" }

theorem not_along_enforces :
    ¬ Along (step (· == ·)) (Enforces (· == ·)) { table := {} } [bob, bob] := by
  intro h
  have honce := h.2.1.once
  revert honce
  decide

end InsertHistory

end GrowServer
