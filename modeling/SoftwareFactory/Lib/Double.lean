import Mathlib.Algebra.Order.Field.Rat
import Mathlib.Algebra.Order.Field.Power
import Mathlib.Algebra.Order.Monoid.Unbundled.WithTop
import Mathlib.Tactic.Linarith
import Mathlib.Tactic.Positivity

namespace Double

/-- The exponent of the greatest power of two that is not above `q`, for a positive `q`. -/
def exponent (q : ℚ) : ℤ :=
  let e : ℤ := q.num.natAbs.log2-q.den.log2
  if q < 2^e then e-1 else e

/-- The unit in the last of 53 binary digits; below the normal numbers it stays the same. -/
def ulp (q : ℚ) : ℚ := 2^max (exponent |q|-52) (-1074)

/-- The nearest integer, of two the even one. -/
def halfEven (q : ℚ) : ℤ :=
  let n := q.floor
  if 1/2 < q-n ∨ (q-n = 1/2 ∧ n%2 = 1) then n+1 else n

/-- The nearest double, as if there were no largest. -/
def round (q : ℚ) : ℚ := halfEven (q/ulp q)*ulp q

/-- The result of an operation whose exact result is `q`. -/
def result (q : ℚ) : WithBot (WithTop ℚ) :=
  if 2^1024 ≤ round q then (⊤ : WithTop ℚ)
  else if round q ≤ -2^1024 then ⊥
  else (round q : WithTop ℚ)

theorem ulp_pos (q : ℚ) : 0 < ulp q := by
  unfold ulp
  positivity

theorem halfEven_error (q : ℚ) : |halfEven q-q| ≤ 1/2 := by
  have hlow := Rat.floor_le q
  have hhigh := Rat.lt_floor_add_one q
  push_cast at hhigh
  rw [halfEven,abs_le]
  split_ifs with h
  · push_cast
    rcases h with h | h
    · constructor <;> linarith
    · constructor <;> linarith [h.1]
  · rw [not_or,not_lt] at h
    constructor <;> linarith [h.1]

/-- A rounded number is within half a unit of the exact one. -/
theorem round_error (q : ℚ) : |round q-q| ≤ ulp q/2 := by
  have hpos := ulp_pos q
  have hdiff : round q-q = (halfEven (q/ulp q)-q/ulp q)*ulp q := by
    rw [round,sub_mul,div_mul_cancel₀ q hpos.ne']
  have herror := halfEven_error (q/ulp q)
  rw [hdiff,abs_mul,abs_of_pos hpos]
  calc |halfEven (q/ulp q)-q/ulp q| * ulp q ≤ 1/2*ulp q :=
        mul_le_mul_of_nonneg_right herror hpos.le
    _ = ulp q/2 := by linarith

/-- Finite doubles, with the product that is rounded. -/
def Rounded : Type := ℚ

namespace Rounded

def of (q : ℚ) : Rounded := q

def value (x : Rounded) : ℚ := x

instance : LinearOrder Rounded := inferInstanceAs (LinearOrder ℚ)
instance : Zero Rounded := ⟨of 0⟩
instance : Mul Rounded := ⟨fun x y => of (round (x.value*y.value))⟩

end Rounded

example : round (1/10) = 3602879701896397/36028797018963968 := by decide +kernel

end Double
