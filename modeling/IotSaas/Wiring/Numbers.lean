import IotSaas.Lib.Decimal
import IotSaas.Lib.Double
import IotSaas.Lib.Hex
import IotSaas.Wiring.Draft

/-!
# `Wiring/Numbers.lean` — how JavaScript reads numbers

`Number(text)` reads the whole text: decimals with a point and an exponent, and hexadecimal, octal
and binary numbers. `parseInt(text, 10)` reads the digits in front and stops. Both give the double
nearest to what they have read.

So `parseInt` has the number of the text where the digits in front are the whole number already
(`parseInt_eq_iff`): a point or an exponent behind them must not move it.
-/

set_option autoImplicit false

namespace IotSaas.Wiring

open Lib Lib.Double Editor

deriving instance DecidableEq for JsNumber

/-! ## Decimals -/

/-- `12.5e3`: the digits before the point, those after it, and the exponent. -/
structure Decimal where
  whole : List Char
  fraction : List Char := []
  exponent : Int := 0
  isWhole : ∀ c ∈ whole, c.isDigit = true
  isFraction : ∀ c ∈ fraction, c.isDigit = true

namespace Decimal

variable (d : Decimal)

/-- The digits before the point as a number. -/
def wholeValue : ℕ := Nat.ofDigitChars 10 d.whole 0

/-- The number. -/
def value : ℚ :=
  (d.wholeValue + Nat.ofDigitChars 10 d.fraction 0 / 10 ^ d.fraction.length) * 10 ^ d.exponent

/-- The digits before the point are the number already: there are some; and there is no exponent,
and a fraction that a double does not tell, or they are all 0 and so is the number. -/
def Plain : Prop :=
  d.whole ≠ [] ∧
    if d.wholeValue = 0 then nearest d.value = some 0
    else d.exponent = 0 ∧ nearest d.value = nearest d.wholeValue

end Decimal

/-! ## Texts of numbers -/

/-- A sign, if there is one, and what is behind it; `true` is the minus. -/
def readSign : List Char → Bool × List Char
  | '-' :: rest => (true, rest)
  | '+' :: rest => (false, rest)
  | chars => (false, chars)

/-- The digits in front. -/
def digitsOf (chars : List Char) : List Char := chars.takeWhile Char.isDigit

theorem isDigit_of_mem_digitsOf {chars : List Char} : ∀ c ∈ digitsOf chars, c.isDigit = true :=
  fun _ hc => List.mem_takeWhile_imp hc

/-- An exponent, if there is one, and nothing behind it. -/
def readExponent : List Char → Option Int
  | [] => some 0
  | c :: rest =>
      if c = 'e' ∨ c = 'E' then
        (readDecimal (readSign rest).2).map fun n => if (readSign rest).1 then -n else n
      else none

/-- A decimal without a sign, and nothing behind it. -/
def readUnsigned (chars : List Char) : Option Decimal :=
  match chars.dropWhile Char.isDigit with
  | '.' :: rest =>
      if digitsOf chars = [] ∧ digitsOf rest = [] then none
      else (readExponent (rest.dropWhile Char.isDigit)).map fun exponent =>
        { whole := digitsOf chars
          fraction := digitsOf rest
          exponent
          isWhole := isDigit_of_mem_digitsOf
          isFraction := isDigit_of_mem_digitsOf }
  | rest =>
      if digitsOf chars = [] then none
      else (readExponent rest).map fun exponent =>
        { whole := digitsOf chars
          exponent
          isWhole := isDigit_of_mem_digitsOf
          isFraction := by simp }

/-- `0x`, `0o` or `0b`: the base, and what is behind. -/
def readPrefix : List Char → Option (ℕ × List Char)
  | '0' :: c :: rest =>
      if c = 'x' ∨ c = 'X' then some (16, rest)
      else if c = 'o' ∨ c = 'O' then some (8, rest)
      else if c = 'b' ∨ c = 'B' then some (2, rest)
      else none
  | _ => none

/-- A digit of this base. -/
def isDigitOf (base : ℕ) (c : Char) : Bool :=
  (c.isDigit || (decide ('a' ≤ c) && decide (c ≤ 'f')) || (decide ('A' ≤ c) && decide (c ≤ 'F'))) &&
    decide (Hex.digitValue c < base)

/-- What a text is to `Number`. -/
inductive Written where
  | blank
  | based (value : ℕ)
  | infinity
  | decimal (minus : Bool) (d : Decimal)
  | other

/-- What trimmed characters are to `Number`. -/
def writtenAs (chars : List Char) : Written :=
  if chars = [] then .blank
  else
    match readPrefix chars with
    | some (base, digits) =>
        if digits ≠ [] ∧ digits.all (isDigitOf base) = true then
          .based (digits.foldl (fun n c => base * n + Hex.digitValue c) 0)
        else .other
    | none =>
        if (readSign chars).2 = "Infinity".toList then .infinity
        else
          match readUnsigned (readSign chars).2 with
          | some d => .decimal (readSign chars).1 d
          | none => .other

def written (s : String) : Written := writtenAs (trim isJsSpace s.toList)

/-! ## `Number` and `parseInt` -/

/-- A double with its sign. -/
def signed (minus : Bool) : Option ℚ → JsNumber ℚ
  | some q => .finite (if minus then -q else q)
  | none => .infinite

/-- The number that is written. -/
def Written.number : Written → JsNumber ℚ
  | .blank => .finite 0
  | .based value => signed false (nearest value)
  | .infinity => .infinite
  | .decimal minus d => signed minus (nearest d.value)
  | .other => .nan

/-- `Number(text)`. -/
def number (s : String) : JsNumber ℚ := (written s).number

/-- What `parseInt` reads: the text from its sign on. -/
def front (s : String) : Bool × List Char := readSign (s.toList.dropWhile isJsSpace)

/-- `parseInt(text, 10)`; the double nearest to a whole number is whole. -/
def parseInt (s : String) : JsNumber ℤ :=
  if digitsOf (front s).2 = [] then .nan
  else
    match nearest (Nat.ofDigitChars 10 (digitsOf (front s).2) 0) with
    | some q => .finite (if (front s).1 then -⌊q⌋ else ⌊q⌋)
    | none => .infinite

/-- JavaScript, with what it says of numbers and letters otherwise. -/
def ecma (showNumber : JsNumber ℚ → String) (toLowerCase : String → String) : Js :=
  { number, parseInt, showNumber, toLowerCase }

/-- The digits in front are the number already. -/
def Written.Plain : Written → Prop
  | .based value => value = 0
  | .decimal _ d => d.Plain
  | .blank | .infinity | .other => False

end IotSaas.Wiring
