import Mathlib.Algebra.Order.Floor.Ring
import Mathlib.Data.Int.Log
import Mathlib.Data.Rat.Floor
import Mathlib.Tactic.Linarith

/-!
# Rounding

Rounding half to even, to an integer and to a binary floating-point number.

Nothing here names a particular program.
-/

namespace EdoPlugin

/-! ## Integers -/

/-- Rounding to the nearest integer, ties to even. -/
def roundHalfEven (q : Rat) : Int :=
  let rest := q - q.floor
  if rest < 1 / 2 then q.floor
  else if 1 / 2 < rest then q.floor + 1
  else if q.floor % 2 = 0 then q.floor else q.floor + 1

theorem roundHalfEven_eq_floor_or (q : Rat) :
    roundHalfEven q = q.floor ∨ roundHalfEven q = q.floor + 1 := by
  unfold roundHalfEven
  dsimp only
  split_ifs <;> simp

@[simp] theorem roundHalfEven_intCast (z : Int) : roundHalfEven z = z := by
  have hrest : (z : Rat) - (z : Rat).floor = 0 := by
    rw [Rat.floor_intCast, sub_self]
  unfold roundHalfEven
  dsimp only
  rw [hrest, if_pos (by norm_num), Rat.floor_intCast]

theorem roundHalfEven_mono {p q : Rat} (h : p ≤ q) : roundHalfEven p ≤ roundHalfEven q := by
  have hfloor : p.floor ≤ q.floor := Rat.floor_monotone h
  by_cases hsame : p.floor = q.floor
  · -- between the same two integers the larger rest is rounded no lower
    unfold roundHalfEven
    dsimp only
    rw [← hsame]
    split_ifs <;> first | omega | linarith
  · have hnext : p.floor + 1 ≤ q.floor := by omega
    rcases roundHalfEven_eq_floor_or p with hp | hp <;>
      rcases roundHalfEven_eq_floor_or q with hq | hq <;> omega

theorem le_roundHalfEven {z : Int} {q : Rat} (h : (z : Rat) ≤ q) : z ≤ roundHalfEven q := by
  have hmono := roundHalfEven_mono h
  rwa [roundHalfEven_intCast] at hmono

/-! ## Floats -/

/-- The float of 53 binary digits nearest to a number, ties to even; its exponent is not bounded. -/
def toFloat (q : Rat) : Rat :=
  let ulp : Rat := 2 ^ (Int.log 2 |q| - 52)
  roundHalfEven (q / ulp) * ulp

example : toFloat (1 / 3) = 6004799503160661 / 18014398509481984 := by decide +kernel

end EdoPlugin
