import PageTemplates.Number.Binary64

/-!
Reading numerals: integers of 64 bits with a sign, and decimals with a fraction or an exponent.
-/

namespace PageTemplates.Numeral

/-- The value of a run of decimal digits, none when it is empty or holds anything else. -/
def digits? (t : Text) : Option Nat :=
  if t ≠ [] ∧ t.all Char.isDigit then
    some (t.foldl (fun n c => 10 * n + (c.toNat - '0'.toNat)) 0)
  else none

/-- A sign and the text after it. -/
def sign : Text → Bool × Text
  | '-' :: rest => (true, rest)
  | '+' :: rest => (false, rest)
  | rest => (false, rest)

def int? (t : Text) : Option Int :=
  let (negative, rest) := sign t
  (digits? rest).map fun n => if negative then -(n : Int) else n

/-- One more than the greatest integer of 64 bits with a sign, two to the power of 63. -/
def int64End : Int := 9223372036854775808

def int64? (t : Text) : Option Int :=
  (int? t).filter fun n => -int64End ≤ n && n < int64End

/-- The number of a list, counted from zero; a plus sign may stand in front. -/
def index? (t : Text) : Option Nat :=
  match t with
  | '+' :: rest => digits? rest
  | rest => digits? rest

/-- The decimal of a numeral: digits with at most one point among them, then perhaps an exponent.  None
also when the number is too large. -/
def decimal? (t : Text) : Option Binary64 :=
  let (negative, body) := sign t
  let (mantissa, exponent) := body.span fun c => c != 'e' && c != 'E'
  let (whole, fraction) := mantissa.span (· != '.')
  let fraction := fraction.drop 1
  match digits? (whole ++ fraction),
      if exponent = [] then some 0 else int? (exponent.drop 1) with
  | some digits, some power => Binary64.ofDecimal? negative digits (power - fraction.length)
  | _, _ => none

end PageTemplates.Numeral
