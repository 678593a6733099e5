import Mathlib.Tactic

/-!
# Truncated fixed-point factors

The factor `a / f` is kept as the number of `B`-ths below it, and a count is scaled by it with one
more truncation. The result is the exact quotient or the number before, as long as the count is
at most `B`.
-/

namespace FixedPoint

/-- `a / f` in units of `1 / B`, rounded down -/
def factor (B a f : ℕ) : ℕ := a * B / f

/-- The count `t` times a factor, rounded down -/
def scale (B p t : ℕ) : ℕ := t * p / B

variable {B a f t t' : ℕ}

/-- The integral part and the part behind the point come from two divisions. -/
lemma factor_eq (hf : 0 < f) : factor B a f = a / f * B + a % f * B / f := by
  have hsplit : a * B = f * (a / f * B) + a % f * B := by
    conv_lhs => rw [← Nat.div_add_mod a f]
    ring
  rw [factor, hsplit, Nat.mul_add_div hf]

/-- The two parts can be applied one by one. -/
lemma scale_add (hB : 0 < B) (high low : ℕ) :
    scale B (high * B + low) t = t * high + t * low / B := by
  have hsplit : t * (high * B + low) = B * (t * high) + t * low := by ring
  rw [scale, hsplit, Nat.mul_add_div hB]

lemma scale_mono (p : ℕ) (h : t ≤ t') : scale B p t ≤ scale B p t' :=
  Nat.div_le_div_right (Nat.mul_le_mul_right p h)

lemma scale_factor_le (hB : 0 < B) (hf : 0 < f) : scale B (factor B a f) t ≤ t * a / f := by
  rw [Nat.le_div_iff_mul_le hf]
  have hscale : scale B (factor B a f) t * B ≤ t * factor B a f := Nat.div_mul_le_self _ _
  have hfactor : factor B a f * f ≤ a * B := Nat.div_mul_le_self _ _
  refine Nat.le_of_mul_le_mul_right ?_ hB
  calc scale B (factor B a f) t * f * B
      = scale B (factor B a f) t * B * f := by ring
    _ ≤ t * factor B a f * f := Nat.mul_le_mul_right f hscale
    _ = t * (factor B a f * f) := by ring
    _ ≤ t * (a * B) := Nat.mul_le_mul_left t hfactor
    _ = t * a * B := by ring

/-- Each truncation costs less than one. -/
lemma le_scale_factor_succ (hB : 0 < B) (hf : 0 < f) (ht : t ≤ B) :
    t * a / f ≤ scale B (factor B a f) t + 1 := by
  rw [← Nat.lt_succ_iff, Nat.div_lt_iff_lt_mul hf]
  have hscale : t * factor B a f < (scale B (factor B a f) t + 1) * B := by
    have := Nat.lt_div_mul_add hB (a := t * factor B a f)
    rw [scale, Nat.add_mul]
    omega
  have hfactor : a * B ≤ (factor B a f + 1) * f := by
    have := Nat.lt_div_mul_add hf (a := a * B)
    rw [factor, Nat.add_mul]
    omega
  refine Nat.lt_of_mul_lt_mul_right (a := B) ?_
  calc t * a * B
      = t * (a * B) := by ring
    _ ≤ t * ((factor B a f + 1) * f) := Nat.mul_le_mul_left t hfactor
    _ = (t * factor B a f + t) * f := by ring
    _ < ((scale B (factor B a f) t + 1) * B + B) * f :=
        Nat.mul_lt_mul_of_pos_right (by omega) hf
    _ = (scale B (factor B a f) t + 1).succ * f * B := by
        rw [Nat.succ_eq_add_one]
        ring

end FixedPoint
