import Fieldwise.Text.Numeral

/-!
Nonnegative fractions, kept as they arise and never reduced: comparisons multiply crosswise. They
carry the exact values that the number types round.
-/

namespace Fieldwise

structure Fraction where
  num : Nat
  den : Nat

namespace Fraction

def ofNat (n : Nat) : Fraction := ⟨n, 1⟩

def add (x y : Fraction) : Fraction := ⟨x.num * y.den + y.num * x.den, x.den * y.den⟩

def mul (x y : Fraction) : Fraction := ⟨x.num * y.num, x.den * y.den⟩

def div (x y : Fraction) : Fraction := ⟨x.num * y.den, x.den * y.num⟩

def le (x y : Fraction) : Bool := x.num * y.den ≤ y.num * x.den

def lt (x y : Fraction) : Bool := x.num * y.den < y.num * x.den

def eq (x y : Fraction) : Bool := x.num * y.den == y.num * x.den

/-- `base ^ exponent` for a positive base. -/
def power (base : Nat) : Int → Fraction
  | .ofNat n => ⟨base ^ n, 1⟩
  | .negSucc n => ⟨1, base ^ (n + 1)⟩

/-- `n · base ^ exponent`. -/
def scaled (n base : Nat) (exponent : Int) : Fraction := (ofNat n).mul (power base exponent)

def floor (x : Fraction) : Nat := x.num / x.den

/-- The nearest natural number; a half goes up. -/
def roundHalfUp (x : Fraction) : Nat := (2 * x.num + x.den) / (2 * x.den)

/-- The nearest natural number; a half goes to the even neighbour. -/
def roundHalfEven (x : Fraction) : Nat :=
  let q := x.num / x.den
  let r := x.num % x.den
  if 2 * r < x.den || (2 * r == x.den && q % 2 == 0) then q else q + 1

theorem roundHalfUp_le_num {x : Fraction} (h : 0 < x.den) : x.roundHalfUp ≤ x.num := by
  have hx : x.num ≤ x.num * x.den := Nat.le_mul_of_pos_right x.num h
  refine Nat.le_of_lt_succ ((Nat.div_lt_iff_lt_mul (by omega)).2 ?_)
  rw [Nat.mul_left_comm, Nat.succ_mul x.num]
  omega

end Fraction

end Fieldwise
