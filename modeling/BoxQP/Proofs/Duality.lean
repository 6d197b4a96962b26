import BoxQP.Inequality
import BoxQP.Proofs.Cholesky

/-!
# The dual and the point it gives back

A program over inequalities and its dual over the non-negative orthant are tied by one
identity: at the point that multipliers give back, the slope of the dual is the slack of
the inequalities. The optimality conditions of both then say the same, and a point that
balances the slope of the program costs at most the products of multipliers and slacks
more than any feasible one. All of it holds for any exact solution of the systems with
`H`; no inequality has to be independent of the others.
-/

namespace BoxQP

variable {n m : Nat}

namespace Mat

theorem form_eq_sum (Q : Mat ℝ n n) (x : Vec ℝ n) : Q.form x = ∑ i, x i * Q.apply x i := by
  simp only [form, apply_real, Finset.mul_sum, mul_assoc]

/-- A symmetric matrix may act on either side of a product. -/
theorem Symmetric.sum_mul_apply {H : Mat ℝ n n} (symmetric : H.Symmetric) (u v : Vec ℝ n) :
    ∑ i, u i * H.apply v i = ∑ i, v i * H.apply u i := by
  simp only [apply_real, Finset.mul_sum]
  rw [Finset.sum_comm]
  refine Finset.sum_congr rfl fun j _ => Finset.sum_congr rfl fun i _ => ?_
  rw [symmetric i j]
  ring

theorem sum_transpose_apply (A : Mat ℝ m n) (lam : Vec ℝ m) (u : Fin n → ℝ) :
    ∑ j, A.transpose.apply lam j * u j = ∑ i, lam i * ∑ j, A i j * u j := by
  simp only [apply_real, transpose_apply, Finset.sum_mul, Finset.mul_sum]
  rw [Finset.sum_comm]
  refine Finset.sum_congr rfl fun i _ => Finset.sum_congr rfl fun j _ => ?_
  ring

theorem Definite.apply_injective {H : Mat ℝ n n} (definite : H.Definite) {u v : Vec ℝ n}
    (same : H.apply u = H.apply v) : u = v := by
  by_contra different
  have row (i : Fin n) : ∑ j, H i j * (v j - u j) = 0 := by
    have entry : H.apply u i = H.apply v i := by rw [same]
    rw [apply_real, apply_real] at entry
    simp only [mul_sub, Finset.sum_sub_distrib, entry, sub_self]
  have flat : H.form (fun i => v i - u i) = 0 := by
    refine Finset.sum_eq_zero fun i _ => ?_
    simp only [mul_assoc]
    rw [← Finset.mul_sum, row, mul_zero]
  have positive := definite _ (Vec.step_ne_zero different)
  exact positive.ne' flat

end Mat

/-- The optimality conditions of an objective over the non-negative orthant. -/
structure Quadratic.Complementary (q : Quadratic ℝ n) (x : Vec ℝ n) : Prop where
  nonneg : ∀ i, 0 ≤ x i
  slope_nonneg : ∀ i, 0 ≤ q.slope x i
  product_eq_zero : ∀ i, x i * q.slope x i = 0

theorem Quadratic.Complementary.stationary {q : Quadratic ℝ n} {x : Vec ℝ n}
    (complementary : q.Complementary x) : q.Stationary 0 none x := by
  intro i a above _
  have zero := complementary.product_eq_zero i
  have uphill := mul_nonneg (complementary.slope_nonneg i) above
  linarith

namespace Inequality

/-- What a program minimises. -/
noncomputable def cost (p : Inequality ℝ n m) (z : Vec ℝ n) : ℝ :=
  1 / 2 * p.H.form z + ∑ j, p.f j * z j

/-- The points that keep every inequality. -/
def feasible (p : Inequality ℝ n m) (b : Vec ℝ m) : Set (Vec ℝ n) :=
  {z | ∀ i, p.A.apply z i ≤ b i}

/-- The multipliers balance the slope of the program at the point. -/
def Balanced (p : Inequality ℝ n m) (z : Vec ℝ n) (lam : Vec ℝ m) : Prop :=
  ∀ j, p.H.apply z j + p.f j + p.A.transpose.apply lam j = 0

/-- The optimality conditions of a program. -/
structure Conditions (p : Inequality ℝ n m) (b : Vec ℝ m) (z : Vec ℝ n) (lam : Vec ℝ m) :
    Prop where
  balanced : p.Balanced z lam
  feasible : z ∈ p.feasible b
  nonneg : ∀ i, 0 ≤ lam i
  product_eq_zero : ∀ i, lam i * (b i - p.A.apply z i) = 0

variable {p : Inequality ℝ n m} {b : Vec ℝ m} {z z' : Vec ℝ n} {lam : Vec ℝ m}

theorem cost_eq_expansion (symmetric : p.H.Symmetric) (z z' : Vec ℝ n) :
    p.cost z' = p.cost z + ∑ j, (p.H.apply z j + p.f j) * (z' j - z j)
      + 1 / 2 * p.H.form (fun j => z' j - z j) := by
  let q : Quadratic ℝ n := { Q := p.H, h := Vec.ofFn fun j => -p.f j }
  have value_eq (y : Vec ℝ n) : q.value y = p.cost y := by
    simp only [q, Quadratic.value_real, Vec.ofFn_apply, neg_mul, Finset.sum_neg_distrib,
      sub_neg_eq_add, cost]
  have slope_eq (j : Fin n) : q.slope z j = p.H.apply z j + p.f j := by
    simp only [q, Quadratic.slope_real, Vec.ofFn_apply, sub_neg_eq_add, Mat.apply_real]
  have expansion := Quadratic.value_eq_expansion (q := q) symmetric z z'
  simpa only [value_eq, slope_eq] using expansion

/-- A balanced point costs no more than a feasible one and the products of multipliers and
slacks, even less half the form of the step between them. -/
theorem Balanced.cost_add_form_le (balanced : p.Balanced z lam) (symmetric : p.H.Symmetric)
    (nonneg : ∀ i, 0 ≤ lam i) (inside : z' ∈ p.feasible b) :
    p.cost z + 1 / 2 * p.H.form (fun j => z' j - z j)
      ≤ p.cost z' + ∑ i, lam i * (b i - p.A.apply z i) := by
  have pulled : ∑ j, (p.H.apply z j + p.f j) * (z' j - z j)
      = -∑ i, lam i * (p.A.apply z' i - p.A.apply z i) := by
    have image (i : Fin m) : p.A.apply z' i - p.A.apply z i = ∑ j, p.A i j * (z' j - z j) := by
      simp only [Mat.apply_real, mul_sub, Finset.sum_sub_distrib]
    simp only [image]
    rw [← Mat.sum_transpose_apply, ← Finset.sum_neg_distrib]
    refine Finset.sum_congr rfl fun j _ => ?_
    rw [eq_neg_of_add_eq_zero_left (balanced j), neg_mul]
  have slack : ∑ i, lam i * (p.A.apply z' i - p.A.apply z i)
      ≤ ∑ i, lam i * (b i - p.A.apply z i) := by
    refine Finset.sum_le_sum fun i _ => mul_le_mul_of_nonneg_left ?_ (nonneg i)
    exact sub_le_sub_right (inside i) _
  rw [cost_eq_expansion symmetric z z', pulled]
  linarith

namespace Conditions

theorem cost_add_form_le (conditions : p.Conditions b z lam) (symmetric : p.H.Symmetric)
    (inside : z' ∈ p.feasible b) :
    p.cost z + 1 / 2 * p.H.form (fun j => z' j - z j) ≤ p.cost z' := by
  have bound := conditions.balanced.cost_add_form_le symmetric conditions.nonneg inside
  rwa [Finset.sum_eq_zero fun i _ => conditions.product_eq_zero i, add_zero] at bound

theorem isMinOn (conditions : p.Conditions b z lam) (symmetric : p.H.Symmetric)
    (definite : p.H.Definite) : IsMinOn p.cost (p.feasible b) z := by
  refine isMinOn_iff.mpr fun z' inside => ?_
  have bound := conditions.cost_add_form_le symmetric inside
  have curved := definite.semidefinite (fun j => z' j - z j)
  linarith

theorem eq_of_isMinOn (conditions : p.Conditions b z lam) (symmetric : p.H.Symmetric)
    (definite : p.H.Definite) (inside : z' ∈ p.feasible b)
    (least : IsMinOn p.cost (p.feasible b) z') : z' = z := by
  have bound := conditions.cost_add_form_le symmetric inside
  have level := isMinOn_iff.mp least z conditions.feasible
  by_contra different
  have := definite _ (Vec.step_ne_zero (Ne.symm different))
  linarith

end Conditions

section Solver

variable {solveH : Vec ℝ n → Vec ℝ n}

/-- The answers of a solver are tied to each other like the matrix. -/
theorem sum_mul_solve (symmetric : p.H.Symmetric) (exact : ∀ v, p.H.apply (solveH v) = v)
    (u v : Vec ℝ n) : ∑ j, u j * solveH v j = ∑ j, v j * solveH u j := by
  calc ∑ j, u j * solveH v j = ∑ j, solveH v j * p.H.apply (solveH u) j := by
        simp only [exact, mul_comm]
    _ = ∑ j, v j * solveH u j := by
        rw [symmetric.sum_mul_apply]
        simp only [exact, mul_comm]

theorem dualBy_Q (symmetric : p.H.Symmetric) (exact : ∀ v, p.H.apply (solveH v) = v)
    (i k : Fin m) : (p.dualBy solveH b).Q i k = ∑ j, p.A k j * solveH (p.A i) j := by
  have half : (Arith.half : ℝ) = 1 / 2 := congrArg (1 / ·) one_add_one_eq_two
  have mixed := sum_mul_solve symmetric exact (p.A i) (p.A k)
  simp only [dualBy, Mat.ofFn_apply, Vec.ofFn_apply, Vec.dot_real, half, mixed]
  ring

theorem dualBy_h (symmetric : p.H.Symmetric) (exact : ∀ v, p.H.apply (solveH v) = v)
    (i : Fin m) : (p.dualBy solveH b).h i = -(∑ j, p.f j * solveH (p.A i) j + b i) := by
  simp only [dualBy, Vec.ofFn_apply, Mat.apply_real, sum_mul_solve symmetric exact (p.A i) p.f]

theorem recoverBy_apply (j : Fin n) :
    p.recoverBy solveH lam j
      = -solveH (Vec.ofFn fun j => p.f j + p.A.transpose.apply lam j) j :=
  Vec.ofFn_apply _ j

theorem balanced_recoverBy (exact : ∀ v, p.H.apply (solveH v) = v) (lam : Vec ℝ m) :
    p.Balanced (p.recoverBy solveH lam) lam := by
  intro j
  have image : p.H.apply (p.recoverBy solveH lam) j = -(p.f j + p.A.transpose.apply lam j) := by
    have solved := congrFun (congrArg Vector.get
      (exact (Vec.ofFn fun j => p.f j + p.A.transpose.apply lam j))) j
    rw [Vec.ofFn_apply, Mat.apply_real] at solved
    simp only [Mat.apply_real _ (p.recoverBy solveH lam), recoverBy_apply, mul_neg,
      Finset.sum_neg_distrib, solved]
  rw [image]
  ring

/-- The slope of the dual is the slack at the point that the multipliers give back. -/
theorem slope_dualBy (symmetric : p.H.Symmetric) (exact : ∀ v, p.H.apply (solveH v) = v)
    (lam : Vec ℝ m) (i : Fin m) :
    (p.dualBy solveH b).slope lam i = b i - p.A.apply (p.recoverBy solveH lam) i := by
  have image : p.A.apply (p.recoverBy solveH lam) i
      = -(∑ j, p.f j * solveH (p.A i) j
        + ∑ k, lam k * ∑ j, p.A k j * solveH (p.A i) j) := by
    rw [Mat.apply_real]
    simp only [recoverBy_apply, mul_neg, Finset.sum_neg_distrib]
    rw [sum_mul_solve symmetric exact, ← Mat.sum_transpose_apply]
    simp only [Vec.ofFn_apply, add_mul, Finset.sum_add_distrib]
  rw [Quadratic.slope_real, dualBy_h symmetric exact, image]
  simp only [dualBy_Q symmetric exact, mul_comm (lam _)]
  ring

theorem dualBy_symmetric (symmetric : p.H.Symmetric) (exact : ∀ v, p.H.apply (solveH v) = v) :
    (p.dualBy solveH b).Q.Symmetric := by
  intro i k
  rw [dualBy_Q symmetric exact, dualBy_Q symmetric exact]
  exact sum_mul_solve symmetric exact (p.A k) (p.A i)

/-- The form of the dual is that of the program at what a solver answers to `Aᵀ v`. -/
theorem form_dualBy (symmetric : p.H.Symmetric) (exact : ∀ v, p.H.apply (solveH v) = v)
    (v : Vec ℝ m) :
    (p.dualBy solveH b).Q.form v = p.H.form (solveH (p.A.transpose.apply v)) := by
  have row (i : Fin m) : (p.dualBy solveH b).Q.apply v i
      = ∑ j, p.A i j * solveH (p.A.transpose.apply v) j := by
    rw [Mat.apply_real, sum_mul_solve symmetric exact, Mat.sum_transpose_apply]
    refine Finset.sum_congr rfl fun k _ => ?_
    rw [dualBy_Q symmetric exact, mul_comm]
  rw [Mat.form_eq_sum, Mat.form_eq_sum, exact]
  simp only [row]
  rw [← Mat.sum_transpose_apply]
  refine Finset.sum_congr rfl fun j _ => mul_comm _ _

theorem dualBy_semidefinite (symmetric : p.H.Symmetric) (definite : p.H.Definite)
    (exact : ∀ v, p.H.apply (solveH v) = v) : (p.dualBy solveH b).Q.Semidefinite := by
  intro v
  have as_vec : v = (Vec.ofFn v : Vec ℝ m) := funext fun i => (Vec.ofFn_apply v i).symm
  rw [as_vec, form_dualBy symmetric exact]
  exact definite.semidefinite _

/-- The conditions of the dual are those of the program at the point given back. -/
theorem complementary_dualBy_iff (symmetric : p.H.Symmetric)
    (exact : ∀ v, p.H.apply (solveH v) = v) :
    (p.dualBy solveH b).Complementary lam ↔ p.Conditions b (p.recoverBy solveH lam) lam := by
  have slack (i : Fin m) := slope_dualBy (b := b) symmetric exact lam i
  constructor
  · intro complementary
    exact
      { balanced := balanced_recoverBy exact lam
        feasible := fun i => sub_nonneg.mp (slack i ▸ complementary.slope_nonneg i)
        nonneg := complementary.nonneg
        product_eq_zero := fun i => slack i ▸ complementary.product_eq_zero i }
  · intro conditions
    exact
      { nonneg := conditions.nonneg
        slope_nonneg := fun i => (slack i).symm ▸ sub_nonneg.mpr (conditions.feasible i)
        product_eq_zero := fun i => (slack i).symm ▸ conditions.product_eq_zero i }

/-- Only one point is balanced by given multipliers. -/
theorem Balanced.eq_recoverBy (balanced : p.Balanced z lam) (definite : p.H.Definite)
    (exact : ∀ v, p.H.apply (solveH v) = v) : z = p.recoverBy solveH lam := by
  refine definite.apply_injective (Vec.ext_apply fun j => ?_)
  have left := balanced j
  have right := balanced_recoverBy exact lam j
  linarith

/-- All exact solvers agree. -/
theorem eq_solve (symmetric : p.H.Symmetric) (definite : p.H.Definite)
    (exact : ∀ v, p.H.apply (solveH v) = v) : solveH = (Factor.ofMat p.H).solve := by
  refine funext fun v => definite.apply_injective ?_
  rw [exact, Factor.apply_solve symmetric definite]

end Solver

/-- For a strictly convex program, any multipliers and the point recovered from them
balance the slope of the program, and the slope of the dual is the slack there. So the
conditions of the dual are those of the program, under which the recovered point is the
only minimiser; and from any point and multipliers with the conditions of the program,
the point is the recovered one and the multipliers minimise the dual. It does not matter
which exact solver is at work. -/
theorem dual_recover_conditions (symmetric : p.H.Symmetric) (definite : p.H.Definite)
    (b : Vec ℝ m) :
    (∀ solveH : Vec ℝ n → Vec ℝ n, (∀ v, p.H.apply (solveH v) = v) →
      p.dualBy solveH b = p.dual b ∧ ∀ lam, p.recoverBy solveH lam = p.recover lam) ∧
    (∀ lam,
      let z := p.recover lam
      p.Balanced z lam ∧
      (∀ i, (p.dual b).slope lam i = b i - p.A.apply z i) ∧
      ((p.dual b).Complementary lam ↔ p.Conditions b z lam) ∧
      ((p.dual b).Complementary lam → z ∈ p.feasible b ∧ IsMinOn p.cost (p.feasible b) z ∧
        ∀ y ∈ p.feasible b, IsMinOn p.cost (p.feasible b) y → y = z)) ∧
    ∀ z lam, p.Conditions b z lam →
      z = p.recover lam ∧ lam ∈ box 0 none ∧ IsMinOn (p.dual b).value (box 0 none) lam := by
  have exact := Factor.apply_solve symmetric definite
  refine ⟨?_, fun lam => ?_, fun z lam conditions => ?_⟩
  · intro solveH solves
    rw [eq_solve symmetric definite solves]
    exact ⟨rfl, fun _ => rfl⟩
  · refine ⟨balanced_recoverBy exact lam, slope_dualBy symmetric exact lam,
      complementary_dualBy_iff symmetric exact, fun complementary => ?_⟩
    have conditions := (complementary_dualBy_iff symmetric exact).mp complementary
    refine ⟨conditions.feasible, conditions.isMinOn symmetric definite, fun y inside least => ?_⟩
    exact conditions.eq_of_isMinOn symmetric definite inside least
  · have recovered : z = p.recover lam := conditions.balanced.eq_recoverBy definite exact
    have there : p.Conditions b (p.recover lam) lam := recovered ▸ conditions
    have complementary : (p.dual b).Complementary lam :=
      (complementary_dualBy_iff symmetric exact).mpr there
    refine ⟨recovered, fun i => ⟨conditions.nonneg i, UpperBound.allows_none⟩, ?_⟩
    exact complementary.stationary.isMinOn (dualBy_symmetric symmetric exact)
      (dualBy_semidefinite symmetric definite exact)

/-- Two coupled unknowns under one inequality that is stated twice. -/
noncomputable def repeated : Inequality ℝ 2 2 where
  H := (Quadratic.coupled 1).Q
  f := #v[-2, -2]
  A := #v[#v[1, 1], #v[1, 1]]

theorem repeated_image (z : Vec ℝ 2) (i : Fin 2) : repeated.A.apply z i = z 0 + z 1 := by
  have row : repeated.A.apply z i = 1 * z 0 + 1 * z 1 := by
    rw [Mat.apply_real, Fin.sum_univ_two]
    fin_cases i <;> rfl
  rw [row, one_mul, one_mul]

/-- The two multipliers of the repeated inequality only have to add up to two. -/
theorem repeated_conditions {s t : ℝ} (s_nonneg : 0 ≤ s) (t_nonneg : 0 ≤ t) (total : s + t = 2) :
    repeated.Conditions #v[0, 0] #v[0, 0] #v[s, t] := by
  have slack (i : Fin 2) : (#v[0, 0] : Vec ℝ 2) i - repeated.A.apply #v[0, 0] i = 0 := by
    rw [repeated_image]
    fin_cases i
    · exact sub_eq_zero.mpr (add_zero 0).symm
    · exact sub_eq_zero.mpr (add_zero 0).symm
  refine ⟨fun j => ?_, fun i => ?_, Fin.forall_fin_two.mpr ⟨s_nonneg, t_nonneg⟩, fun i => ?_⟩
  · simp only [Mat.apply_real, Mat.transpose_apply, Fin.sum_univ_two]
    fin_cases j
    · change (1 + 1) * 0 + -1 * 0 + -2 + (1 * s + 1 * t) = 0
      linarith
    · change -1 * 0 + (1 + 1) * 0 + -2 + (1 * s + 1 * t) = 0
      linarith
  · exact (sub_eq_zero.mp (slack i)).ge
  · rw [slack, mul_zero]

/-- Unlike multipliers of the repeated inequality give back one and the same minimiser. -/
theorem dual_recover_conditions_repeated :
    repeated.H.Symmetric ∧ repeated.H.Definite ∧
      repeated.recover #v[2, 0] = #v[0, 0] ∧ repeated.recover #v[1, 1] = #v[0, 0] ∧
      IsMinOn repeated.cost (repeated.feasible #v[0, 0]) (repeated.recover #v[1, 1]) := by
  have symmetric : repeated.H.Symmetric := Quadratic.coupled_symmetric 1
  have definite : repeated.H.Definite := Quadratic.coupled_definite one_pos
  have two_zero := repeated_conditions zero_le_two le_rfl (add_zero 2)
  have one_one := repeated_conditions zero_le_one zero_le_one one_add_one_eq_two
  obtain ⟨-, forward, backward⟩ := dual_recover_conditions symmetric definite #v[0, 0]
  obtain ⟨first, -, -⟩ := backward _ _ two_zero
  obtain ⟨second, -, -⟩ := backward _ _ one_one
  obtain ⟨-, -, same, optimal⟩ := forward #v[1, 1]
  have minimises := (optimal (same.mpr (second ▸ one_one))).2.1
  exact ⟨symmetric, definite, first.symm, second.symm, minimises⟩

end Inequality

end BoxQP
