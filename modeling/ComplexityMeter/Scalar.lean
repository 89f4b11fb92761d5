/-!
# The arithmetic of scores

Scores are computed over any type with the operations below. A run uses numbers that round; a
law about scores can be read over exact numbers by giving them the same operations. Nothing in
the definitions relies on an algebraic law, so the order of the operations is part of them.
-/

namespace ComplexityMeter

/-- The operations that scores are written in. Whole numbers enter by casts, the constants of the
formulas as decimal literals. -/
class Scalar (α : Type) extends
    Add α, Sub α, Mul α, Div α, NatCast α, IntCast α, OfScientific α, LE α, LT α where
  decidableLE : DecidableLE α
  decidableLT : DecidableLT α
  /-- The greatest integer that is not above a number. -/
  floor : α → Int
  /-- The least integer that is not below a number. -/
  ceil : α → Int

/-- Numbers with a square root. -/
class SquareRoot (α : Type) where
  squareRoot : α → α

namespace Scalar

variable {α : Type} [Scalar α]

instance instDecidableLE : DecidableLE α := decidableLE
instance instDecidableLT : DecidableLT α := decidableLT

/-- A sum from the left, starting at the whole number zero. -/
def sum (xs : List α) : α :=
  xs.foldl (· + ·) ((0 : Nat) : α)

def atLeast (bound x : α) : α :=
  if bound < x then x else bound

def isZero (x : α) : Bool :=
  decide (x ≤ ((0 : Nat) : α)) && decide (((0 : Nat) : α) ≤ x)

end Scalar

end ComplexityMeter
