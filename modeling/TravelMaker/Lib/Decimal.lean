import TravelMaker.Lib.Text

/-! Decimal numbers in text, as `decimal.Decimal` reads them. -/
namespace TravelMaker.Lib

/-- `coefficient * 10 ^ exponent` with its sign, or one of the special values. -/
inductive Decimal where
  | finite (negative : Bool) (coefficient : Nat) (exponent : Int)
  | infinity (negative : Bool)
  | nan
deriving DecidableEq, Repr

namespace Decimal
open Text

/-- `MAX_EMAX` and `MIN_ETINY`: the exponents of an exact result. -/
def maxEmax : Int := 999999999999999999
def minEtiny : Int := -1999999999999999997

def digitsToNat (digits : List Char) : Nat :=
  digits.foldl (fun n c => n * 10 + (digit? c).getD 0) 0

/-- The sign, and what follows it. -/
def splitSign : List Char → Bool × List Char
  | '-' :: rest => (true, rest)
  | '+' :: rest => (false, rest)
  | s => (false, s)

def isE (c : Char) : Bool := c == 'e' || c == 'E'

/-- The exponent part; none is zero. -/
def exponent? : List Char → Option Int
  | [] => some 0
  | c :: rest =>
    let (negative, digits) := splitSign rest
    if isE c ∧ digits ≠ [] ∧ digits.all isDigit then
      some (if negative then -(digitsToNat digits : Int) else digitsToNat digits)
    else none

/-- Digits with an optional point and an optional exponent. -/
def number? (negative : Bool) (s : List Char) : Option Decimal :=
  let whole := s.takeWhile isDigit
  let (fraction, rest) := match s.dropWhile isDigit with
    | '.' :: rest => (rest.takeWhile isDigit, rest.dropWhile isDigit)
    | rest => ([], rest)
  if whole ++ fraction = [] then none
  else
    (exponent? rest).bind fun e =>
      let coefficient := digitsToNat (whole ++ fraction)
      let exponent := e - fraction.length
      if minEtiny ≤ exponent ∧ exponent + (Nat.repr coefficient).length - 1 ≤ maxEmax then
        some (.finite negative coefficient exponent)
      else none

/-- `Decimal(s)`; `none` for the `InvalidOperation`. -/
def ofText? (s : String) : Option Decimal :=
  let (negative, body) := splitSign ((stripWith isSpace s.toList).filter (· != '_'))
  let name := body.map Char.toLower
  let unsignalled := if name.head? = some 's' then name.tail else name
  if name = "inf".toList ∨ name = "infinity".toList then some (.infinity negative)
  else if "nan".toList.isPrefixOf unsignalled ∧ (unsignalled.drop 3).all isDigit then some .nan
  else number? negative body

example : ofText? " -12.50e3" = some (.finite true 1250 1) := by decide +kernel

end Decimal
end TravelMaker.Lib
