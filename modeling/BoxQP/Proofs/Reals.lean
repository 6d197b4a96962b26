import BoxQP.Update
import Mathlib.Algebra.BigOperators.Fin
import Mathlib.Analysis.Real.Sqrt
import Mathlib.Tactic.NormNum

/-!
# Exact arithmetic

The real numbers as an arithmetic: every number is finite, and a quotient by zero is
zero. The equations below restate sums, the objective and the parts of a split in the
operations of the real field, so that nothing after this module opens their definitions.
-/

namespace BoxQP

-- The field operations of a number type come before those that an arithmetic lends it.
attribute [instance (low)] Arith.toZero Arith.toOne Arith.toAdd Arith.toSub Arith.toMul Arith.toDiv
  Arith.toNeg

noncomputable instance realArith : Arith ℝ where
  toZero := inferInstance
  toOne := inferInstance
  toAdd := inferInstance
  toSub := inferInstance
  toMul := inferInstance
  toDiv := inferInstance
  toNeg := inferInstance
  abs a := |a|
  sqrt := Real.sqrt
  max := max
  min := min
  lt a b := decide (a < b)
  le a b := decide (a ≤ b)
  isFinite _ := true
  ofInt k := k

variable {n : Nat}

theorem foldl_add_real (f : Fin n → ℝ) : Fin.foldl n (fun acc i => acc + f i) 0 = ∑ i, f i := by
  induction n with
  | zero => simp
  | succ n ih => rw [Fin.foldl_succ_last, Fin.sum_univ_castSucc, ih]

theorem sum_real (f : Fin n → ℝ) : sum f = ∑ i, f i := by
  match n, f with
  | 0, f => exact (sum_zero f).trans (Fin.sum_univ_zero f).symm
  | 1, f => exact (sum_one f).trans (Fin.sum_univ_one f).symm
  | _ + 2, f => exact (sum_add_two f).trans (foldl_add_real f)

theorem Vec.dot_real (u v : Vec ℝ n) : Vec.dot u v = ∑ i, u i * v i := sum_real _

theorem Mat.apply_real {m : Nat} (M : Mat ℝ m n) (x : Vec ℝ n) (i : Fin m) :
    M.apply x i = ∑ j, M i j * x j := by
  rw [Mat.apply_apply, Vec.dot_real]

theorem Vec.floored_real (x : Vec ℝ n) (ε : ℝ) (i : Fin n) : Vec.floored x ε i = max (x i) ε :=
  Split.floored_apply x ε i

namespace Mat

def Symmetric {α : Type} (Q : Mat α n n) : Prop := ∀ i j, Q i j = Q j i

/-- The quadratic form of a matrix. -/
def form (Q : Mat ℝ n n) (v : Fin n → ℝ) : ℝ := ∑ i, ∑ j, v i * Q i j * v j

def Semidefinite (Q : Mat ℝ n n) : Prop := ∀ v : Fin n → ℝ, 0 ≤ Q.form v

def Definite (Q : Mat ℝ n n) : Prop := ∀ v : Fin n → ℝ, v ≠ 0 → 0 < Q.form v

@[simp]
theorem form_zero (Q : Mat ℝ n n) : Q.form 0 = 0 := by
  simp [form]

theorem Definite.semidefinite {Q : Mat ℝ n n} (definite : Q.Definite) : Q.Semidefinite := by
  intro v
  by_cases zero : v = 0
  · rw [zero, form_zero]
  · exact (definite v zero).le

theorem form_smul (Q : Mat ℝ n n) (t : ℝ) (v : Fin n → ℝ) : Q.form (t • v) = t ^ 2 * Q.form v := by
  simp only [form, Finset.mul_sum, Pi.smul_apply, smul_eq_mul]
  refine Finset.sum_congr rfl fun i _ => Finset.sum_congr rfl fun j _ => ?_
  ring

end Mat

namespace Quadratic

theorem slope_real (q : Quadratic ℝ n) (x : Vec ℝ n) (i : Fin n) :
    q.slope x i = ∑ j, q.Q i j * x j - q.h i := by
  rw [slope_apply, Vec.dot_real]

theorem value_real (q : Quadratic ℝ n) (x : Vec ℝ n) :
    q.value x = 1 / 2 * q.Q.form x - ∑ i, q.h i * x i := by
  have product : Vec.dot x (q.Q.apply x) = q.Q.form x := by
    simp only [Vec.dot_real, Mat.apply_apply, Mat.form, Finset.mul_sum, mul_assoc]
  have half : (Arith.half : ℝ) = 1 / 2 := congrArg (1 / ·) one_add_one_eq_two
  rw [← Vec.dot_real q.h x, ← product, ← half]
  rfl

end Quadratic

namespace Policy

theorem positivePart_simple (Q : Mat ℝ n n) (i j : Fin n) :
    Policy.simple.positivePart Q i j = max (Q i j) 0 := Mat.ofFn_apply _ i j

theorem positivePart_absValue (Q : Mat ℝ n n) (i j : Fin n) :
    Policy.absValue.positivePart Q i j = |Q i j| := Mat.ofFn_apply _ i j

theorem positivePart_diagonalDominance (Q : Mat ℝ n n) (i j : Fin n) :
    Policy.diagonalDominance.positivePart Q i j
      = max (Q i j) 0 + if i = j then ∑ k, (max (Q i k) 0 - Q i k) else 0 := by
  have nonnegative (k : Fin n) : Q.nonnegative i k = max (Q i k) 0 := Mat.ofFn_apply _ i k
  simp only [positivePart, Mat.diagonal, Mat.ofFn_apply, Vec.ofFn_apply, sum_real, nonnegative]

end Policy

namespace Split

variable (p : Policy) (q : Quadratic ℝ n) (ε : ℝ)

theorem growth_real (s : Split ℝ n) (x : Vec ℝ n) (i : Fin n) :
    s.growth x i = ∑ j, s.negQ i j * x j + s.posH i := by
  rw [← Vec.dot_real]
  rfl

theorem decay_real (s : Split ℝ n) (x : Vec ℝ n) (i : Fin n) :
    s.decay x i = ∑ j, s.posQ i j * x j + s.negH i := by
  rw [← Vec.dot_real]
  rfl

theorem posQ_real (i j : Fin n) :
    (build p q ε).posQ i j = p.positivePart q.Q i j + if i = j then ε else 0 := by
  rw [build_posQ]
  split
  · exact congrArg _ (mul_one ε)
  · exact congrArg _ (mul_zero ε)

theorem negQ_real (i j : Fin n) :
    (build p q ε).negQ i j = (build p q ε).posQ i j - q.Q i j := build_negQ p q ε i j

theorem posH_real (i : Fin n) : (build p q ε).posH i = max (q.h i) 0 * (1 + ε) := build_posH p q ε i

theorem negH_real (i : Fin n) : (build p q ε).negH i = (build p q ε).posH i - q.h i :=
  build_negH p q ε i

theorem growth_simple (x : Vec ℝ n) (i : Fin n) :
    (build .simple q ε).growth x i
      = ∑ j, (max (q.Q i j) 0 + (if i = j then ε else 0) - q.Q i j) * x j
        + max (q.h i) 0 * (1 + ε) := by
  simp only [growth_real, negQ_real, posQ_real, Policy.positivePart_simple, posH_real]

theorem decay_simple (x : Vec ℝ n) (i : Fin n) :
    (build .simple q ε).decay x i
      = ∑ j, (max (q.Q i j) 0 + if i = j then ε else 0) * x j
        + (max (q.h i) 0 * (1 + ε) - q.h i) := by
  simp only [decay_real, posQ_real, Policy.positivePart_simple, negH_real, posH_real]

/-- The ratio that a coordinate is multiplied by, before it is cut at the bound. -/
theorem coordinate_real (s : Split ℝ n) (bound : Option (UpperBound ℝ n)) (x : Vec ℝ n)
    (i : Fin n) :
    s.coordinate bound x i = UpperBound.cap bound i (x i * s.growth x i / s.decay x i) := rfl

end Split

end BoxQP
