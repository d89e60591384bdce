import GrowServer.Lib.Dictionary
import GrowServer.Lib.FailingRun
import GrowServer.Utils.TextUpdate

/-!
# A text as a dictionary (Utils/TextParse.cpp, Utils/TextParse.hpp)

A text under a sequence of `Add` and `Set` calls, at the sender and at a receiver that parses
it. What stands in the lines is a list of pairs, and what is read under a key is the value
that the dictionary of these pairs has there.
-/

namespace GrowServer
open LittleEndian RunLogic

inductive TextCall where
  | add (key value : Bytes)
  | set (key value : Bytes)
  deriving DecidableEq

namespace TextCall

/-- A key and a value that hold no separator. -/
structure CleanPair (pair : Bytes × Bytes) : Prop where
  key_ne_nil : pair.1 ≠ []
  key : Template.Clean 10 124 pair.1
  value : Template.Clean 10 124 pair.2
  key_carriageReturn : carriageReturn ∉ pair.1
  value_carriageReturn : carriageReturn ∉ pair.2

instance (pair : Bytes × Bytes) : Decidable (CleanPair pair) :=
  decidable_of_iff (pair.1 ≠ [] ∧ Template.Clean 10 124 pair.1 ∧ Template.Clean 10 124 pair.2 ∧
      carriageReturn ∉ pair.1 ∧ carriageReturn ∉ pair.2)
    ⟨fun h => ⟨h.1, h.2.1, h.2.2.1, h.2.2.2.1, h.2.2.2.2⟩,
      fun h => ⟨h.key_ne_nil, h.key, h.value, h.key_carriageReturn, h.value_carriageReturn⟩⟩

def pair : TextCall → Bytes × Bytes
  | add key value => (key, value)
  | set key value => (key, value)

def isAdd : TextCall → Bool
  | add _ _ => true
  | set _ _ => false

def run (this : TextParse) : TextCall → Except Fault TextParse
  | add key value => .ok (this.add key value)
  | set key value => this.set key value

/-- What a call means for the dictionary. -/
def define (d : Bytes → Option Bytes) : TextCall → Bytes → Option Bytes
  | add key value => Dictionary.define d key value
  | set key value => Dictionary.redefine d key value

def answers (calls : List TextCall) : Bytes → Option Bytes := calls.foldl define fun _ => none

end TextCall

namespace TextParse
open TextCall

theorem get_ofPairs_clean {data : List (Bytes × Bytes)} (h : ∀ pair ∈ data, CleanPair pair)
    (key : Bytes) : (ofPairs data).get key = .ok ((Dictionary.ofList data key).getD []) := by
  have hkeys : ∀ pair ∈ data, pair.1 ≠ [] ∧ (124 : UInt8) ∉ pair.1 := fun pair hpair =>
    ⟨(h pair hpair).key_ne_nil, (h pair hpair).key.bar_not_mem⟩
  rw [get_ofPairs data key 1 hkeys]
  apply congrArg Except.ok
  cases hvalue : Dictionary.ofList data key with
  | none => exact lookup_ofPairs_of_not_mem data key 1 hkeys (Dictionary.ofList_eq_none hvalue)
  | some value =>
    refine lookup_ofPairs ?_ (Dictionary.ofList_eq_some hvalue)
    exact fun pair hpair => ⟨(hkeys pair hpair).1, (hkeys pair hpair).2,
      (h pair hpair).value.bar_not_mem⟩

theorem fields_line_pair {pair : Bytes × Bytes} (h : CleanPair pair) :
    (fields (pair.1 ++ bar.bytes ++ pair.2)).head? = some pair.1 :=
  fields_entry h.key_ne_nil h.key.bar_not_mem

theorem set_ofPairs {data : List (Bytes × Bytes)} (h : ∀ pair ∈ data, CleanPair pair)
    (key value : Bytes) :
    (ofPairs data).set key value =
      .ok (ofPairs (data.set (Dictionary.place key data) (key, value))) := by
  have hplace : position key (ofPairs data).m_data = Dictionary.place key data := by
    rw [ofPairs_m_data, Dictionary.place]
    induction data with
    | nil => rfl
    | cons pair data ih =>
      obtain ⟨hpair, hdata⟩ := List.forall_mem_cons.mp h
      rw [List.map_cons, position_cons, fields_line_pair hpair, List.findIdx_cons, ih hdata]
      by_cases hkey : pair.1 = key
      · simp [hkey]
      · simp [hkey]
  rw [set_eq_ok_iff, hplace]
  refine ⟨?_, ?_⟩
  · intro line hline
    have hmem := (List.takeWhile_sublist _).subset hline
    rw [ofPairs_m_data] at hmem
    obtain ⟨pair, hpair, rfl⟩ := List.mem_map.mp hmem
    exact fields_ne_nil_of_head (fields_line_pair (h pair hpair))
  · have hlines : (ofPairs data).m_data.set (Dictionary.place key data)
        (key ++ bar.bytes ++ value) =
          (ofPairs (data.set (Dictionary.place key data) (key, value))).m_data := by
      rw [ofPairs_m_data, ofPairs_m_data, List.map_set]
    exact congrArg TextParse.mk hlines

theorem cleanLine_pair {pair : Bytes × Bytes} (h : CleanPair pair) :
    CleanLine (pair.1 ++ bar.bytes ++ pair.2) where
  ne_nil := by simp [h.key_ne_nil]
  newline_not_mem := by
    have hbar : (10 : UInt8) ∉ bar.bytes := by decide
    simp [h.key.newline_not_mem, h.value.newline_not_mem, hbar]
  carriageReturn_not_mem := by
    have hkey : (13 : UInt8) ∉ pair.1 := h.key_carriageReturn
    have hvalue : (13 : UInt8) ∉ pair.2 := h.value_carriageReturn
    have hbar : (13 : UInt8) ∉ bar.bytes := by decide
    simp [hkey, hvalue, hbar]

/-- The pairs are what the lines say, and say what the dictionary does. -/
structure Stands (this : TextParse) (d : Bytes → Option Bytes) (data : List (Bytes × Bytes)) :
    Prop where
  lines : this = ofPairs data
  clean : ∀ pair ∈ data, CleanPair pair
  means : Dictionary.ofList data = d

theorem Stands.get {this : TextParse} {d : Bytes → Option Bytes} {data : List (Bytes × Bytes)}
    (h : this.Stands d data) (key : Bytes) : this.get key = .ok ((d key).getD []) := by
  rw [h.lines, get_ofPairs_clean h.clean, h.means]

theorem Stands.received {this : TextParse} {d : Bytes → Option Bytes}
    {data : List (Bytes × Bytes)} (h : this.Stands d data) : parse this.getAsString = this := by
  have hlines : (parse this.getAsString).m_data = this.m_data := by
    rw [parse_getAsString_iff, h.lines, ofPairs_m_data]
    intro line hline
    obtain ⟨pair, hpair, rfl⟩ := List.mem_map.mp hline
    exact cleanLine_pair (h.clean pair hpair)
  exact congrArg TextParse.mk hlines

theorem Stands.step {this : TextParse} {d : Bytes → Option Bytes} {data : List (Bytes × Bytes)}
    (h : this.Stands d data) {call : TextCall} (hcall : CleanPair call.pair) :
    ∃ after data', run this call = .ok after ∧ after.Stands (define d call) data' ∧
      data'.length = data.length + call.isAdd.toNat := by
  obtain ⟨rfl, hclean, rfl⟩ := h
  cases call with
  | add key value =>
    have hadd : (ofPairs data).add key value = ofPairs (data ++ [(key, value)]) := by
      rw [ofPairs, ofPairs, List.foldl_concat]
    refine ⟨_, _, rfl, ⟨hadd, ?_, Dictionary.ofList_concat data key value⟩, List.length_append⟩
    intro pair hpair
    rcases List.mem_append.mp hpair with hold | hnew
    · exact hclean pair hold
    · rwa [List.mem_singleton.mp hnew]
  | set key value =>
    refine ⟨_, _, set_ofPairs hclean key value, ⟨rfl, ?_, Dictionary.ofList_set data key value⟩,
      List.length_set⟩
    intro pair hpair
    rcases List.mem_or_eq_of_mem_set hpair with hold | rfl
    · exact hclean pair hold
    · exact hcall

theorem stands_exec {this : TextParse} {d : Bytes → Option Bytes} {data : List (Bytes × Bytes)}
    (h : this.Stands d data) {calls : List TextCall} (hcalls : ∀ call ∈ calls, CleanPair call.pair) :
    ∃ after data', exec (untilFailure run) (.ok this) calls = .ok after ∧
      after.Stands (calls.foldl define d) data' ∧
      data'.length = data.length + calls.countP isAdd := by
  induction calls generalizing this d data with
  | nil => exact ⟨this, data, rfl, h, rfl⟩
  | cons call calls ih =>
    obtain ⟨hcall, hrest⟩ := List.forall_mem_cons.mp hcalls
    obtain ⟨next, between, hnext, hstands, hlength⟩ := h.step hcall
    obtain ⟨after, data', hafter, hends, hlength'⟩ := ih hstands hrest
    refine ⟨after, data', exec_cons_eq_ok.mpr ⟨next, hnext, hafter⟩, hends, ?_⟩
    rw [hlength', hlength, List.countP_cons]
    cases call.isAdd with
    | false => simp
    | true =>
      simp
      omega

/-- Over any sequence of `Add` and `Set` calls whose keys and values hold no separator, every
call completes, a line stands for each `Add`, and what is read under any key, here and by a
receiver of the text, is what the dictionary of the calls has there. -/
theorem text_answers {calls : List TextCall} (hcalls : ∀ call ∈ calls, CleanPair call.pair) :
    ∃ this, exec (untilFailure run) (.ok {}) calls = .ok this ∧
      this.getSize = calls.countP isAdd ∧
      (∀ key, this.get key = .ok ((answers calls key).getD [])) ∧
      ∀ key, (parse this.getAsString).get key = .ok ((answers calls key).getD []) := by
  have hstart : Stands {} (fun _ => none) [] := ⟨rfl, by simp, rfl⟩
  obtain ⟨this, data, hthis, hstands, hlength⟩ := stands_exec hstart hcalls
  refine ⟨this, hthis, ?_, hstands.get, ?_⟩
  · rw [getSize, hstands.lines, ofPairs_m_data, List.length_map, hlength, List.length_nil,
      Nat.zero_add]
  · rw [hstands.received]
    exact hstands.get

def refusedForm : List TextCall :=
  [.add (ascii "logon") (ascii "Bob"), .add (ascii "password") [], .set (ascii "logon") (ascii "bob"),
    .set (ascii "rid") (ascii "1"), .add (ascii "logon") (ascii "eve")]

theorem text_answers_refusedForm :
    ∃ this, exec (untilFailure run) (.ok {}) refusedForm = .ok this ∧
      this.getSize = refusedForm.countP isAdd ∧
      (∀ key, this.get key = .ok ((answers refusedForm key).getD [])) ∧
      ∀ key, (parse this.getAsString).get key = .ok ((answers refusedForm key).getD []) :=
  text_answers (by decide +kernel)

example : answers refusedForm (ascii "logon") = some (ascii "bob") := by decide +kernel

end TextParse

end GrowServer
