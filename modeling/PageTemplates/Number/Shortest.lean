import PageTemplates.Number.Binary64

/-!
The fewest decimal digits that tell a binary floating-point number from its neighbours, and the text
made of them.  A number owns the decimals that round to it; on the coarsest grid of powers of ten with a
point among them, the point nearest to the number is taken.
-/

namespace PageTemplates

structure Decimal where
  digits : Nat
  power : Int
deriving Repr, DecidableEq

namespace Binary64

/-- Which of two equally near decimals stands for a number. -/
inductive Tie where
  /-- The one whose last digit is even. -/
  | even
  /-- The one that is further from zero. -/
  | away
deriving Repr, DecidableEq

/-- Whether a tie goes to the greater of two neighbours, of which `below` is the smaller. -/
def Tie.goesUp (tie : Tie) (below : Nat) : Bool :=
  match tie with
  | even => below % 2 == 1
  | away => true

/-- In quarters of the last place: the least and greatest decimals that round to a number.  Below a
power of two the neighbour is half as far. -/
def ownedQuarters (x : Binary64) : Nat × Nat :=
  (if x.significand = fullBits ∧ -1074 < x.exponent then 4 * x.significand - 1
    else 4 * x.significand - 2, 4 * x.significand + 2)

/-- A point `candidate * 10 ^ power`, compared with `quarters * 2 ^ (exponent - 2)`: both as integers on
a common scale. -/
def onCommonScale (exponent power : Int) (candidate quarters : Nat) : Nat × Nat :=
  (candidate * pow10 power.toNat * pow2 (2 - exponent).toNat,
    quarters * pow2 (exponent - 2).toNat * pow10 (-power).toNat)

/-- Whether a grid point rounds to the number.  The ends of the range do when the significand is
even. -/
def owns (x : Binary64) (power : Int) (candidate : Nat) : Bool :=
  let (low, high) := x.ownedQuarters
  let (point, least) := onCommonScale x.exponent power candidate low
  let (_, greatest) := onCommonScale x.exponent power candidate high
  if x.significand % 2 = 0 then least ≤ point && point ≤ greatest
  else least < point && point < greatest

/-- The point of the grid of multiples of `10 ^ power` that is nearest to the number among those that
round to it; of two equally near, the one that `tie` says. -/
def onGrid? (tie : Tie) (x : Binary64) (power : Int) : Option Decimal :=
  let (unit, value) := onCommonScale x.exponent power 1 (4 * x.significand)
  let below := value / unit
  let rest := value % unit
  let nearer := if unit < 2 * rest ∨ (2 * rest = unit ∧ tie.goesUp below) then below + 1 else below
  let farther := if nearer = below then below + 1 else below
  if x.owns power nearer then some ⟨nearer, power⟩
  else if x.owns power farther then some ⟨farther, power⟩
  else none

/-- A power of ten above the number, at most three places off. -/
def powerAbove (x : Binary64) : Int :=
  ((Nat.log2 x.significand : Int) + x.exponent + 1) * 30103 / 100000 + 2

/-- The shortest decimal that reads back as the number: from coarse grids to fine ones, the first with a
point that rounds to it. -/
def shortest (tie : Tie) (x : Binary64) : Decimal :=
  if x.significand = 0 then ⟨0, 0⟩
  else ((List.range 22).findSome? fun (i : Nat) => x.onGrid? tie (x.powerAbove - i)).getD ⟨0, 0⟩

structure Layout where
  /-- Whether a number of this order of magnitude is written without an exponent. -/
  positional : Int → Bool
  /-- What follows a number without a fraction. -/
  wholeMark : Text
  tie : Tie

/-- A decimal laid out; its order of magnitude is the power of ten of its first digit. -/
def Layout.write (layout : Layout) (d : Decimal) : Text :=
  let digits := Text.ofNat d.digits
  let magnitude : Int := d.power + digits.length - 1
  if layout.positional magnitude then
    if 0 ≤ d.power then digits ++ List.replicate d.power.toNat '0' ++ layout.wholeMark
    else if 0 ≤ magnitude then
      digits.take (magnitude.toNat + 1) ++ '.' :: digits.drop (magnitude.toNat + 1)
    else '0' :: '.' :: List.replicate (-magnitude - 1).toNat '0' ++ digits
  else
    (match digits with
      | [] | [_] => digits
      | first :: others => first :: '.' :: others) ++
      'e' :: (if 0 ≤ magnitude then ['+'] else []) ++ Text.ofInt magnitude

def text (layout : Layout) (x : Binary64) : Text :=
  (if x.negative then ['-'] else []) ++ layout.write (x.shortest layout.tie)

end Binary64
end PageTemplates
