import GrowServer.Lib.LittleEndian

/-!
# std::stoi and std::stof

The two number conversions of the standard library that client text reaches, in
the C locale. Both read the longest prefix that is a number; without one they
throw `std::invalid_argument`, and where the number does not fit the result type
`std::out_of_range`.
-/

namespace GrowServer
open LittleEndian

/-- The ways in which running the server's code does not complete. -/
inductive Fault where
  | tokenIndex
  | itemIndex
  | invalidArgument
  | outOfRange
  deriving DecidableEq, Repr

namespace StdNumber

def isSpace (c : UInt8) : Bool := c == 32 || (9 ≤ c && c ≤ 13)

def digit (c : UInt8) : Option ℕ :=
  if 48 ≤ c ∧ c ≤ 57 then some (c.toNat - 48)
  else if 97 ≤ c ∧ c ≤ 102 then some (c.toNat - 87)
  else if 65 ≤ c ∧ c ≤ 70 then some (c.toNat - 55)
  else none

def isDigit (base : ℕ) (c : UInt8) : Bool := (digit c).any (· < base)

def spanDigits (base : ℕ) (s : Bytes) : List ℕ × Bytes :=
  ((s.takeWhile (isDigit base)).filterMap digit, s.dropWhile (isDigit base))

def ofDigits (base : ℕ) (ds : List ℕ) : ℕ := ds.foldl (fun v d => base * v + d) 0

def spanSign : Bytes → Bool × Bytes
  | 45 :: s => (true, s)
  | 43 :: s => (false, s)
  | s => (false, s)

def withSign (negative : Bool) (v : ℕ) : ℤ := if negative then -(v : ℤ) else v

def stoi (s : Bytes) : Except Fault ℤ :=
  let (negative, s) := spanSign (s.dropWhile isSpace)
  let (ds, _) := spanDigits 10 s
  let v := withSign negative (ofDigits 10 ds)
  if ds = [] then .error .invalidArgument
  else if v < -2 ^ 31 ∨ 2 ^ 31 ≤ v then .error .outOfRange
  else .ok v

inductive Magnitude where
  | finite (num den : ℕ)
  | infinite
  | nan
  deriving DecidableEq, Repr

def scaled (num base : ℕ) (exponent : ℤ) : Magnitude :=
  .finite (num * base ^ exponent.toNat) (base ^ (-exponent).toNat)

def exponentPart (upper lower : UInt8) : Bytes → ℤ
  | [] => 0
  | c :: s =>
    let (negative, s) := spanSign s
    let (ds, _) := spanDigits 10 s
    if (c = upper ∨ c = lower) ∧ ds ≠ [] then withSign negative (ofDigits 10 ds) else 0

/-- Digits with an optional point: their number and how many stand behind the point. -/
def mantissa (base : ℕ) (s : Bytes) : Option (ℕ × ℕ × Bytes) :=
  let (int, s) := spanDigits base s
  let (frac, s) :=
    match s with
    | 46 :: t => if int = [] ∧ (spanDigits base t).1 = [] then ([], s) else spanDigits base t
    | _ => ([], s)
  if int = [] ∧ frac = [] then none
  else some (ofDigits base (int ++ frac), frac.length, s)

def decimal (s : Bytes) : Option Magnitude := do
  let (v, places, s) ← mantissa 10 s
  return scaled v 10 (exponentPart 69 101 s - places)

def hexadecimal : Bytes → Option Magnitude
  | 48 :: x :: s =>
    if x = 88 ∨ x = 120 then do
      let (v, places, s) ← mantissa 16 s
      return scaled v 2 (exponentPart 80 112 s - 4 * places)
    else none
  | _ => none

def toLower (c : UInt8) : UInt8 := if 65 ≤ c ∧ c ≤ 90 then c + 32 else c

/-- The numeric prefix `strtof` converts: its sign and magnitude. -/
def numericPrefix (s : Bytes) : Option (Bool × Magnitude) :=
  let (negative, s) := spanSign (s.dropWhile isSpace)
  let word := (s.take 3).map toLower
  if word = ascii "inf" then some (negative, .infinite)
  else if word = ascii "nan" then some (negative, .nan)
  else ((hexadecimal s).or (decimal s)).map fun magnitude => (negative, magnitude)

def roundHalfEven (num den : ℕ) : ℕ :=
  let q := num / den
  let r := num % den
  if 2 * r < den ∨ (2 * r = den ∧ q % 2 = 0) then q else q + 1

/-- The exponent `e` with `2 ^ e ≤ num / den < 2 ^ (e + 1)`. -/
def binaryExponent (num den : ℕ) : ℤ :=
  let e : ℤ := num.log2 - den.log2
  if num * 2 ^ (-e).toNat < den * 2 ^ e.toNat then e - 1 else e

def inUnits (num den : ℕ) (e : ℤ) : ℕ × Bool :=
  let num := num * 2 ^ (-e).toNat
  let den := den * 2 ^ e.toNat
  (roundHalfEven num den, num % den != 0)

/-- The bits of the nearest `float`; `none` where `strtof` reports a range error,
which is an overflow or a tiny result that is inexact. -/
def toFloatBits (num den : ℕ) : Option ℕ :=
  if num = 0 then some 0
  else
    let e := binaryExponent num den - 23
    let (m, inexact) := inUnits num den (max e (-149))
    let bits := ((max e (-149)) + 149).toNat * 2 ^ 23 + m
    let tiny := e < -149 ∧ ¬ (e = -150 ∧ (inUnits num den e).1 = 2 ^ 24)
    if 255 * 2 ^ 23 ≤ bits ∨ (tiny ∧ inexact) then none else some bits

def magnitudeBits : Magnitude → Option ℕ
  | .finite num den => toFloatBits num den
  | .infinite => some (255 * 2 ^ 23)
  | .nan => some (255 * 2 ^ 23 + 2 ^ 22)

def stof (s : Bytes) : Except Fault UInt32 :=
  match numericPrefix s with
  | none => .error .invalidArgument
  | some (negative, magnitude) =>
    match magnitudeBits magnitude with
    | none => .error .outOfRange
    | some bits => .ok (UInt32.ofNat ((if negative then 2 ^ 31 else 0) + bits))

def Converts (s : Bytes) : Prop :=
  ∃ negative magnitude, numericPrefix s = some (negative, magnitude) ∧
    (magnitudeBits magnitude).isSome

theorem stof_ok_iff (s : Bytes) : (∃ bits, stof s = .ok bits) ↔ Converts s := by
  unfold Converts stof
  cases hprefix : numericPrefix s with
  | none => simp
  | some p =>
    obtain ⟨negative, magnitude⟩ := p
    cases hbits : magnitudeBits magnitude with
    | none => simp [hbits]
    | some bits => simp [hbits]

example : stof (ascii " -2.5e1x") = .ok 0xC1C80000 := by decide
example : stof (ascii "3.40282357e38") = .error .outOfRange := by decide

end StdNumber

end GrowServer
