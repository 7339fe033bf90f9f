import FactoryScript.Count

/-!
# JSON numbers

The grammar of a JSON number as a machine that takes one character at a time, and the one bound
that the numbers of a document have: those with a fraction, an exponent or too many digits are
floating point, and must not lie beyond its range. The bound is a matter of the approximation that
is made of a number: a significand of 64 bits, rounded to 53 of them, times a power of ten.
-/

namespace FactoryScript.Json.Numeral

inductive Phase
  | minus | zero | whole | point | fraction | exponent | exponentSign | exponentDigits
  deriving DecidableEq, Repr

/-- The phase after a leading minus or digit. -/
def Phase.start? (c : Char) : Option Phase :=
  if c = '-' then some .minus
  else if c = '0' then some .zero
  else if c.isDigit then some .whole
  else none

private def Phase.tail? (c : Char) : Option Phase :=
  if c = 'e' ∨ c = 'E' then some .exponent else none

/-- The phase after one more character; `none` if the number cannot go on with it. -/
def Phase.next? : Phase → Char → Option Phase
  | .minus, c => if c = '0' then some .zero else if c.isDigit then some .whole else none
  | .zero, c => if c = '.' then some .point else Phase.tail? c
  | .whole, c =>
    if c.isDigit then some .whole else if c = '.' then some .point else Phase.tail? c
  | .point, c => if c.isDigit then some .fraction else none
  | .fraction, c => if c.isDigit then some .fraction else Phase.tail? c
  | .exponent, c =>
    if c = '+' ∨ c = '-' then some .exponentSign
    else if c.isDigit then some .exponentDigits
    else none
  | .exponentSign, c => if c.isDigit then some .exponentDigits else none
  | .exponentDigits, c => if c.isDigit then some .exponentDigits else none

def Phase.complete : Phase → Bool
  | .zero | .whole | .fraction | .exponentDigits => true
  | _ => false

/-- What is kept of a number: `significand * 10 ^ exponent`. -/
structure Approximation where
  significand : Nat
  exponent : Int
  /-- The last digit did not fit, and no later one is kept. -/
  full : Bool
  deriving DecidableEq, Repr

namespace Approximation

/-- The significand with one more digit, if it still has 64 bits. -/
def append? (a : Approximation) (c : Char) : Option Nat :=
  let n := 10 * a.significand + Count.digitValue c
  if a.full || Nat.pow 2 64 ≤ n then none else some n

/-- A digit before the decimal point; one that is not kept counts as a zero. -/
def whole (a : Approximation) (c : Char) : Approximation :=
  match a.append? c with
  | some n => { a with significand := n }
  | none => { a with exponent := a.exponent + 1, full := true }

/-- A digit after the decimal point; one that is not kept has no weight. -/
def fraction (a : Approximation) (c : Char) : Approximation :=
  match a.append? c with
  | some n => { a with significand := n, exponent := a.exponent - 1 }
  | none => { a with full := true }

/-- The approximation of a number without its sign. -/
def ofDigits (whole fraction : List Char) (power : Int) : Approximation :=
  let a := whole.foldl Approximation.whole ⟨0, 0, false⟩
  let a := fraction.foldl Approximation.fraction { a with full := false }
  { a with exponent := a.exponent + power }

end Approximation

/-- The nearest number of 53 significant bits, of two the one with an even last bit. -/
def nearestDouble (n : Nat) : Nat :=
  let unit := Nat.pow 2 (n.log2 + 1 - 53)
  let q := n / unit
  let r := n % unit
  if unit < 2 * r ∨ unit = 2 * r ∧ q % 2 = 1 then (q + 1) * unit else q * unit

/-- The least integer that rounds to infinity in double precision. -/
def overflow : Nat := Nat.pow 2 1024 - Nat.pow 2 970

def maxExponent : Int := 308

/-- The approximation lies beyond the range of double precision, in which the significand, the power
of ten and their product are rounded one after the other. -/
def Approximation.exceedsRange (a : Approximation) : Bool :=
  if a.significand = 0 ∨ a.exponent < 0 then false
  else if maxExponent < a.exponent then true
  else overflow ≤ nearestDouble a.significand * nearestDouble (Nat.pow 10 a.exponent.toNat)

def exceedsRange (numeral : List Char) : Bool :=
  let body := numeral.dropWhile (· == '-')
  let mantissa := body.takeWhile fun c => c != 'e' && c != 'E'
  let whole := mantissa.takeWhile (· != '.')
  let exponent := (body.drop mantissa.length).drop 1
  let power : Int := Count.ofDigits (exponent.filter Char.isDigit)
  (Approximation.ofDigits whole ((mantissa.drop whole.length).drop 1)
    (if exponent.head? = some '-' then -power else power)).exceedsRange

end FactoryScript.Json.Numeral
