import GrowServer.Utils.TextParse

/-!
# The two splitters (Utils/TextParse.cpp, Utils/MiscUtils.hpp)

`Utils::Split` searches for the delimiter and keeps every piece, the one behind the last
delimiter as well; `TextParse::StringTokenize` runs over two positions and drops empty
pieces.
-/

namespace GrowServer
open LittleEndian

namespace Utils

def splitLoop (data delimiter : Bytes) : (fuel startPos : ℕ) → Option (List Bytes)
  | 0, _ => none
  | fuel + 1, startPos =>
    match findFrom data delimiter startPos with
    | none => return [data.drop startPos]
    | some endPos => do
      let token := (data.drop startPos).take (endPos - startPos)
      let startPos := endPos + delimiter.length
      return token :: (← splitLoop data delimiter fuel startPos)

theorem splitLoop_eq (data : Bytes) (delimiter : Delimiter) (fuel startPos : ℕ)
    (hpos : startPos ≤ data.length) (hfuel : data.length < fuel + startPos) :
    splitLoop data delimiter.bytes fuel startPos =
      some (Split.pieces delimiter.bytes (data.drop startPos)) := by
  induction fuel generalizing startPos with
  | zero => omega
  | succ fuel ih =>
    have hlen : (data.drop startPos).length = data.length - startPos := List.length_drop
    unfold splitLoop findFrom
    rw [Split.pieces_eq delimiter.ne_nil]
    cases hfind : Split.find delimiter.bytes (data.drop startPos) with
    | none => rfl
    | some i =>
      have hbound := Split.find_bound hfind
      have hdpos : 0 < delimiter.bytes.length := List.length_pos_iff.mpr delimiter.ne_nil
      have hcut : i + startPos - startPos = i := by omega
      have hdrop : (data.drop startPos).drop (i + delimiter.bytes.length) =
          data.drop (i + startPos + delimiter.bytes.length) := by
        rw [drop_add_length]
        congr 1
        omega
      have hrest := ih (i + startPos + delimiter.bytes.length) (by omega) (by omega)
      simp only [Option.map_some, hcut, hdrop, hrest]
      rfl

theorem splitLoop_start (data : Bytes) (delimiter : Delimiter) {fuel : ℕ}
    (hfuel : data.length < fuel) :
    splitLoop data delimiter.bytes fuel 0 = some (Split.pieces delimiter.bytes data) :=
  splitLoop_eq data delimiter fuel 0 (Nat.zero_le _) hfuel

theorem splitLoop_isSome (data : Bytes) (delimiter : Delimiter) :
    (splitLoop data delimiter.bytes (data.length + 1) 0).isSome := by
  rw [splitLoop_start data delimiter (Nat.lt_succ_self _)]
  rfl

def split (data : Bytes) (delimiter : Delimiter) : List Bytes :=
  (splitLoop data delimiter.bytes (data.length + 1) 0).get (splitLoop_isSome data delimiter)

theorem split_eq (data : Bytes) (delimiter : Delimiter) :
    split data delimiter = Split.pieces delimiter.bytes data :=
  Option.get_of_eq_some _ (splitLoop_start data delimiter (Nat.lt_succ_self _))

end Utils

theorem tokenizeLoop_start (string : Bytes) (delimiter : Delimiter) {fuel : ℕ}
    (hfuel : string.length < fuel) :
    tokenizeLoop string delimiter.bytes fuel 0 = some (stringTokenize string delimiter) := by
  rw [stringTokenize_eq]
  exact tokenizeLoop_eq string delimiter fuel 0 (Nat.zero_le _) hfuel

/-- Both loops end, within as many rounds as the text has bytes and one more; the pieces
of the one are the text cut at its delimiters, and the tokens of the other are those of
them that are not empty. -/
theorem splitters_agree (string : Bytes) (delimiter : Delimiter) :
    (∀ fuel, string.length < fuel →
      Utils.splitLoop string delimiter.bytes fuel 0 = some (Utils.split string delimiter) ∧
        tokenizeLoop string delimiter.bytes fuel 0 = some (stringTokenize string delimiter)) ∧
    delimiter.bytes.intercalate (Utils.split string delimiter) = string ∧
    (∀ piece ∈ Utils.split string delimiter, ¬ delimiter.bytes <:+: piece) ∧
    stringTokenize string delimiter = (Utils.split string delimiter).filter (· ≠ []) := by
  rw [Utils.split_eq]
  refine ⟨?_, Split.intercalate_pieces delimiter.ne_nil string, ?_, ?_⟩
  · intro fuel hfuel
    exact ⟨Utils.splitLoop_start string delimiter hfuel, tokenizeLoop_start string delimiter hfuel⟩
  · intro piece hpiece
    exact Split.not_infix_of_mem_pieces delimiter.ne_nil hpiece
  · rw [stringTokenize_eq, Split.tokens]

example : Utils.split (ascii "aaa|a") ⟨ascii "aa", by decide⟩ = [[], ascii "a|a"] := by decide

end GrowServer
