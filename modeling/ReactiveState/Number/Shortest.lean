import ReactiveState.Number.Parts

/-! # Shortest digits

The decimal digits that a double is written with: of all decimals that round to the double, those
with the fewest digits, and of these the nearest.  The search tries the grids `k · 10 ^ p` from
coarse to fine; if a grid has a point in the interval of numbers that round to the double, then one
of the value's two neighbours on that grid lies in it.  What is left open is which neighbour wins
when both are equally near; a `Tie` says. -/

namespace ReactiveState

/-- Which of two equally near decimals is taken. -/
inductive Tie where
  /-- The one whose last digit is even. -/
  | toEven
  /-- The larger one. -/
  | up
deriving DecidableEq, Repr

/-- The number `coefficient · 10 ^ exponent`. -/
structure Decimal where
  coefficient : Nat
  exponent : Int
deriving DecidableEq, Repr

namespace Decimal

/-- The grid of the powers of ten, in integers: a number `a · 2 ^ (q - 2)` is `a · factor` and a
step of the grid `10 ^ p` is `unit`. -/
structure Grid where
  factor : Nat
  unit : Nat

/-- The grid of `10 ^ p` for numbers scaled by `2 ^ (q - 2)`. -/
def Grid.of (q p : Int) : Grid :=
  ⟨Nat.pow 10 (-p).toNat <<< (q - 2).toNat, Nat.pow 10 p.toNat <<< (2 - q).toNat⟩

/-- The point of the grid in the interval around `mantissa · 2 ^ q` that is nearest to it.  The
interval ends half a unit of the mantissa away, or a quarter below a power of two, and holds its
ends when the mantissa is even. -/
def Grid.nearest? (g : Grid) (tie : Tie) (mantissa : Nat) (q : Int) : Option Nat :=
  -- All three in quarters of a unit of the mantissa, so that the ends of the interval are whole
  let value := 4 * mantissa * g.factor
  let below :=
    if mantissa = FloatParts.leadingBit ∧ -1074 < q then 4 * mantissa - 1 else 4 * mantissa - 2
  let lower := below * g.factor
  let upper := (4 * mantissa + 2) * g.factor
  let closed := mantissa % 2 = 0
  -- The neighbours of the value on the grid are `k` and `k + 1`
  let k := value / g.unit
  let low := if closed then lower ≤ k * g.unit else lower < k * g.unit
  let high := if closed then (k + 1) * g.unit ≤ upper else (k + 1) * g.unit < upper
  if low ∧ high then
    match compare (2 * value) ((2 * k + 1) * g.unit) with
    | .lt => some k
    | .gt => some (k + 1)
    | .eq => some (if tie = .toEven ∧ k % 2 = 0 then k else k + 1)
  else if low then some k
  else if high then some (k + 1)
  else none

/-- Searches `steps + 1` grids from `10 ^ p` down. -/
def search (tie : Tie) (mantissa : Nat) (q : Int) : Nat → Int → Decimal
  | 0, p => ⟨((Grid.of q p).nearest? tie mantissa q).getD 0, p⟩
  | steps + 1, p =>
    match (Grid.of q p).nearest? tie mantissa q with
    | some k => ⟨k, p⟩
    | none => search tie mantissa q steps (p - 1)

/-- The shortest decimal of `mantissa · 2 ^ q`.  The first grid is coarser than the value; the
logarithm of two to base ten is a little below 0.30103. -/
def shortest (tie : Tie) (mantissa : Nat) (q : Int) : Decimal :=
  search tie mantissa q 24 ((mantissa.log2 + q + 2) * 30103 / 100000 + 1)

end Decimal

end ReactiveState
