import GrowServer.Lib.FailingRun
import GrowServer.Lib.Outcome
import GrowServer.Lib.StoreLog
import GrowServer.Packet.VariantList

/-!
# VariantList as a sequence (Packet/VariantList.cpp)

An argument list from its construction on, under calls of Insert, Set and Get in any
order, beside the log of what the calls stored. Get and Set let the index through that
is the length of the list.
-/

namespace GrowServer
open RunLogic Outcome StoreLog

theorem VariantList.get_eq_ok_iff (list : VariantList) (index : ℕ) (var : Variant) :
    list.get index = .ok var ↔
      index ≠ list.m_objects.length ∧ (list.m_objects[index]?).getD (.int 0) = var := by
  unfold get
  by_cases hlarge : index > list.m_objects.length
  · rw [if_pos hlarge, List.getElem?_eq_none (by omega), Except.ok.injEq, Option.getD_none]
    exact (and_iff_right (by omega)).symm
  · rw [if_neg hlarge]
    by_cases hlt : index < list.m_objects.length
    · rw [List.getElem?_eq_getElem hlt, Option.getD_some]
      simp only [Except.ok.injEq]
      exact (and_iff_right (by omega)).symm
    · rw [List.getElem?_eq_none (by omega)]
      refine iff_of_false ?_ fun h => h.1 (by omega)
      intro h
      cases h

theorem VariantList.set_eq_ok_iff (list after : VariantList) (index : ℕ) (data : Variant) :
    list.set index data = .ok after ↔ index ≠ list.m_objects.length ∧
      (if index < list.m_objects.length then
        { list with m_objects := list.m_objects.set index data } else list) = after := by
  unfold set
  by_cases hlarge : index > list.m_objects.length
  · rw [if_pos hlarge, if_neg (by omega), Except.ok.injEq]
    exact (and_iff_right (by omega)).symm
  · rw [if_neg hlarge]
    by_cases hlt : index < list.m_objects.length
    · rw [if_pos hlt, if_pos hlt, Except.ok.injEq]
      exact (and_iff_right (by omega)).symm
    · rw [if_neg hlt]
      refine iff_of_false ?_ fun h => h.1 (by omega)
      intro h
      cases h

inductive ListCall where
  | insert (data : Variant)
  | set (index : ℕ) (data : Variant)
  | get (index : ℕ)
  deriving DecidableEq, Repr

/-- The list and what was stored so far, the newest first. -/
structure ListHistory where
  list : VariantList := .empty
  log : List (Store Variant) := []

namespace ListHistory

def step (h : ListHistory) : ListCall → Except VariantList.OutsideVector ListHistory
  | .insert data => .ok ⟨h.list.insert data, .append data :: h.log⟩
  | .set index data => (h.list.set index data).map fun list => ⟨list, .replace index data :: h.log⟩
  | .get index => (h.list.get index).map fun _ => h

/-- The call stays inside the vector; Get finds what was stored last, or 0 behind the
end, and Set changes nothing there. -/
def ActsAsSequence (h : ListHistory) : ListCall → Prop
  | .insert _ => True
  | .set index data =>
    ∃ list, h.list.set index data = .ok list ∧ (StoreLog.length h.log ≤ index → list = h.list)
  | .get index => h.list.get index = .ok ((latest h.log index).getD (.int 0))

def AvoidsEnd (h : ListHistory) : ListCall → Prop
  | .insert _ => True
  | .set index _ => index ≠ StoreLog.length h.log
  | .get index => index ≠ StoreLog.length h.log

def Logged (h : ListHistory) : Prop := Holds h.list.m_objects h.log

theorem logged_step {h after : ListHistory} {call : ListCall} (hlog : h.Logged)
    (hstep : h.step call = .ok after) : after.Logged := by
  cases call with
  | insert data =>
    rw [← Except.ok.inj hstep]
    exact Holds.append hlog data
  | set index data =>
    obtain ⟨list, hset, rfl⟩ := map_eq_ok.mp hstep
    obtain ⟨-, rfl⟩ := (VariantList.set_eq_ok_iff _ _ _ _).mp hset
    by_cases hlt : index < h.list.m_objects.length
    · rw [if_pos hlt]
      exact Holds.replace hlog hlt data
    · rw [if_neg hlt]
      exact Holds.replace_outside hlog (by omega) data
  | get index =>
    obtain ⟨var, -, rfl⟩ := map_eq_ok.mp hstep
    exact hlog

theorem actsAsSequence_iff {h : ListHistory} (call : ListCall) (hlog : h.Logged) :
    h.ActsAsSequence call ↔ h.AvoidsEnd call := by
  obtain ⟨hlength, hlatest⟩ := hlog
  cases call with
  | insert data => exact Iff.rfl
  | set index data =>
    simp only [ActsAsSequence, AvoidsEnd, VariantList.set_eq_ok_iff, ← hlength]
    constructor
    · intro hset
      obtain ⟨list, ⟨hne, -⟩, -⟩ := hset
      exact hne
    · intro hne
      exact ⟨_, ⟨hne, rfl⟩, fun hle => if_neg (by omega)⟩
  | get index =>
    simp only [ActsAsSequence, AvoidsEnd, VariantList.get_eq_ok_iff, ← hlength, ← hlatest index]
    exact and_iff_left trivial

/-- Over every run of calls on a new list, it behaves as the sequence of what was
stored exactly when no Get and no Set is made at the number of objects inserted so far. -/
theorem along_actsAsSequence_iff (calls : List ListCall) :
    Along (untilFailure step) (OnState ActsAsSequence) (.ok {}) calls ↔
      Along (untilFailure step) (OnState AvoidsEnd) (.ok {}) calls := by
  have hstart : Logged {} := holds_nil
  apply along_onState_iff calls hstart
  · intro h call after hlog _ hstep
    exact logged_step hlog hstep
  · intro h call hlog
    exact actsAsSequence_iff call hlog

theorem not_along_actsAsSequence :
    ¬ Along (untilFailure step) (OnState ActsAsSequence) (.ok {})
      [.insert (.string [72, 105]), .get 1] := by
  intro h
  have hget : (VariantList.empty.insert (.string [72, 105])).get 1 = .ok (.int 0) := h.2.1 _ rfl
  have houtside : (VariantList.empty.insert (.string [72, 105])).get 1 = .error ⟨1⟩ := rfl
  rw [houtside] at hget
  cases hget

end ListHistory

end GrowServer
