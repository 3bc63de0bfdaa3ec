import RevoMigration.Decimal.Finite

/-!
# `Decimal` values with their special values

A `Decimal` the scripts compute with is finite, an infinity or a NaN (`PyDecimal`): `Decimal(s)` accepts
`"Infinity"` and `"NaN"`, and `Decimal(str(f))` of a float `f` gives them for `inf` and `nan`. The operations
follow the `decimal` module's rules for special operands; a quiet and a signaling NaN are one value here, since
the scripts never look at a NaN other than to compute with it, compare it or convert it, and each of these
raises for both (at once for a signaling NaN, at the comparison or at `int()` for a quiet one).

`PyDecimal.floatLeZero` and `PyDecimal.floatTruthy` are the tests the bridge makes on the float command-line
prices, read through the same `Decimal(str(f))`.
-/

namespace RevoMigration.Decimal

/-- A `Decimal`: finite, an infinity (with its sign), or a NaN. -/
inductive PyDecimal
  | finite (x : Dec)
  | infinity (negative : Bool)
  | nan
  deriving DecidableEq, Repr

namespace PyDecimal

/-- `Decimal(n)` of a Python `int`. -/
def ofInt (n : ℤ) : PyDecimal := .finite (Dec.ofInt n)

/-- `x * y`. -/
def mul : PyDecimal → PyDecimal → Except PyError PyDecimal
  | .nan, _ => .ok .nan
  | _, .nan => .ok .nan
  | .infinity s, .infinity t => .ok (.infinity (s != t))
  | .infinity s, .finite y =>
    if y.coeff = 0 then .error .invalidOperation else .ok (.infinity (s != decide (y.coeff < 0)))
  | .finite x, .infinity t =>
    if x.coeff = 0 then .error .invalidOperation else .ok (.infinity (decide (x.coeff < 0) != t))
  | .finite x, .finite y => finite <$> x.mul y

/-- `x / y`: a finite value over an infinity is a zero (`Clamped`, not trapped). -/
def div : PyDecimal → PyDecimal → Except PyError PyDecimal
  | .nan, _ => .ok .nan
  | _, .nan => .ok .nan
  | .infinity _, .infinity _ => .error .invalidOperation
  | .infinity s, .finite y => .ok (.infinity (s != decide (y.coeff < 0)))
  | .finite _, .infinity _ => .ok (.finite ⟨0, etiny⟩)
  | .finite x, .finite y => finite <$> x.div y

/-- `x + y`. -/
def add : PyDecimal → PyDecimal → Except PyError PyDecimal
  | .nan, _ => .ok .nan
  | _, .nan => .ok .nan
  | .infinity s, .infinity t => if s = t then .ok (.infinity s) else .error .invalidOperation
  | .infinity s, .finite _ => .ok (.infinity s)
  | .finite _, .infinity t => .ok (.infinity t)
  | .finite x, .finite y => finite <$> x.add y

/-- `int(x)`. -/
def toInt : PyDecimal → Except PyError ℤ
  | .nan => .error .valueError
  | .infinity _ => .error .overflowError
  | .finite x => .ok x.toInt

/-- The outcome of comparing `x` with `0` (`x <= 0`, `x > 0`): `InvalidOperation` for a NaN. -/
def compareZero : PyDecimal → Except PyError Ordering
  | .nan => .error .invalidOperation
  | .infinity negative => .ok (if negative then .lt else .gt)
  | .finite x => .ok (compare x.coeff 0)

/-- `f <= 0` of the float `f` with `Decimal(str(f)) = x`: false for a NaN. -/
def floatLeZero : PyDecimal → Bool
  | .nan => false
  | .infinity negative => negative
  | .finite x => decide (x.coeff ≤ 0)

/-- `bool(f)` of the float `f` with `Decimal(str(f)) = x`. -/
def floatTruthy : PyDecimal → Bool
  | .finite x => decide (x.coeff ≠ 0)
  | _ => true

/-- A positive finite decimal. -/
def PositiveFinite (x : PyDecimal) : Prop := ∃ d : Dec, x = .finite d ∧ 0 < d.coeff

@[simp] theorem mul_finite (x y : Dec) : (finite x).mul (finite y) = finite <$> x.mul y := rfl

@[simp] theorem div_finite (x y : Dec) : (finite x).div (finite y) = finite <$> x.div y := rfl

@[simp] theorem toInt_finite (x : Dec) : (finite x).toInt = .ok x.toInt := rfl

end PyDecimal

theorem Dec.val_pos_iff {x : Dec} : 0 < x.val ↔ 0 < x.coeff := by
  have hp : (0 : ℚ) < 10 ^ x.exp := zpow_pos (by norm_num) _
  rw [Dec.val, mul_pos_iff_of_pos_right hp, Int.cast_pos]

end RevoMigration.Decimal
