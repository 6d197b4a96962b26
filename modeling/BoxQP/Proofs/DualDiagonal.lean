import BoxQP.Proofs.DualErrorBound
import BoxQP.Proofs.InequalityShapes

/-!
# Where the dual is degenerate

The dual of a strictly convex program is symmetric and semidefinite whatever its
inequalities are; dependent ones, repeated ones or more of them than unknowns only leave
directions in which its form is zero, those that the inequalities send to zero. A single
multiplier is such a direction exactly where its inequality has a row of zeros. So it is
these rows, and no dependence between others, that keep a solve from its standard start.
-/

namespace BoxQP

variable {n m : Nat}

namespace Inequality

variable {p : Inequality ℝ n m} {r : Vec ℝ m} {solveH : Vec ℝ n → Vec ℝ n}

/-- The form of the program is zero at the answer for nothing but zero. -/
theorem form_solve_eq_zero_iff (definite : p.H.Definite)
    (exact : ∀ w, p.H.apply (solveH w) = w) (w : Vec ℝ n) :
    p.H.form (solveH w) = 0 ↔ ∀ j, w j = 0 := by
  constructor
  · intro flat j
    have answer_zero : (fun i => solveH w i) = 0 := by
      by_contra nonzero
      exact (definite _ nonzero).ne' flat
    have entry (i : Fin n) : solveH w i = 0 := congrFun answer_zero i
    rw [← exact w, Mat.apply_real]
    simp only [entry, mul_zero, Finset.sum_const_zero]
  · intro zero
    rw [Mat.form_eq_sum, exact]
    simp only [zero, mul_zero, Finset.sum_const_zero]

/-- The form of the dual is zero exactly where the inequalities send the multipliers to
zero. -/
theorem form_dualBy_eq_zero_iff (symmetric : p.H.Symmetric) (definite : p.H.Definite)
    (exact : ∀ w, p.H.apply (solveH w) = w) (v : Vec ℝ m) :
    (p.dualBy solveH r).Q.form v = 0 ↔ ∀ j, p.A.transpose.apply v j = 0 := by
  rw [form_dualBy symmetric exact]
  exact form_solve_eq_zero_iff definite exact _

/-- A diagonal entry of the dual is the form of the program at the answer for its row. -/
theorem dualBy_diagonal (symmetric : p.H.Symmetric) (exact : ∀ w, p.H.apply (solveH w) = w)
    (i : Fin m) : (p.dualBy solveH r).Q i i = p.H.form (solveH (p.A i)) := by
  rw [dualBy_Q symmetric exact, Mat.form_eq_sum, exact]
  exact Finset.sum_congr rfl fun j _ => mul_comm _ _

theorem dualBy_diagonal_nonpos_iff (symmetric : p.H.Symmetric) (definite : p.H.Definite)
    (exact : ∀ w, p.H.apply (solveH w) = w) (i : Fin m) :
    (p.dualBy solveH r).Q i i ≤ 0 ↔ ∀ j, p.A i j = 0 := by
  have nonneg : 0 ≤ p.H.form (solveH (p.A i)) := definite.semidefinite _
  rw [dualBy_diagonal symmetric exact, ← form_solve_eq_zero_iff definite exact]
  exact ⟨fun low => low.antisymm nonneg, fun zero => zero.le⟩

/-- The inequality has no coefficient but zero. -/
def ZeroRow (p : Inequality ℝ n m) (i : Fin m) : Prop := ∀ j, p.A i j = 0

/-- What is reported of a degenerate diagonal are the rows of zeros. -/
theorem mem_degenerate_dual_iff (symmetric : p.H.Symmetric) (definite : p.H.Definite) (k : Nat) :
    k ∈ (p.dual r).degenerate ↔ ∃ i : Fin m, i.val = k ∧ p.ZeroRow i := by
  have exact := Factor.apply_solve symmetric definite
  have low (i : Fin m) : i.val ∈ (p.dual r).degenerate ↔ p.ZeroRow i := by
    rw [Quadratic.val_mem_degenerate_iff]
    exact decide_eq_true_iff.trans (dualBy_diagonal_nonpos_iff symmetric definite exact i)
  constructor
  · intro member
    have inside := Quadratic.lt_of_mem_degenerate member
    exact ⟨⟨k, inside⟩, rfl, (low ⟨k, inside⟩).mp member⟩
  · rintro ⟨i, rfl, zero⟩
    exact (low i).mpr zero

end Inequality

section Calls

variable {α : Type} [Arith α]

theorem Quadratic.solve?_of_degenerate {q : Quadratic α n} (unsound : q.degenerate ≠ [])
    (bound : Literal α) (c : Config α) (tracked : Bool) :
    q.solve? .null bound c tracked = .error (.degenerateDiagonal q.degenerate) := by
  rw [solve?, Statement.start?_degenerate q unsound]
  rfl

theorem Quadratic.solve?_of_sound {q : Quadratic α n} (sound : q.degenerate = [])
    {bound : Literal α} {u : Option (UpperBound α n)}
    (bounded : Statement.bound? n bound = .ok u) (c : Config α) (tracked : Bool) :
    q.solve? .null bound c tracked
      = ({ objective := q, start := q.guess, bound := u } : Problem α n).answer? c tracked := by
  rw [solve?, Statement.start?_open q sound]
  change (Statement.bound? n bound >>= _) = _
  rw [bounded]
  rfl

/-- With its start left open, an objective whose bound is read is refused for a degenerate
diagonal exactly if it has one. -/
theorem Quadratic.solve?_eq_degenerate_iff {q : Quadratic α n} {bound : Literal α}
    {u : Option (UpperBound α n)} (bounded : Statement.bound? n bound = .ok u) (c : Config α)
    (tracked : Bool) (indices : List Nat) :
    q.solve? .null bound c tracked = .error (.degenerateDiagonal indices) ↔
      q.degenerate = indices ∧ indices ≠ [] := by
  by_cases sound : q.degenerate = []
  · rw [solve?_of_sound sound bounded, sound]
    constructor
    · intro stopped
      cases Problem.isOfRun_of_answer? stopped
    · rintro ⟨rfl, unsound⟩
      exact absurd rfl unsound
  · rw [solve?_of_degenerate sound, Except.error.injEq, Fault.degenerateDiagonal.injEq]
    constructor
    · rintro rfl
      exact ⟨rfl, sound⟩
    · exact And.left

end Calls

namespace Inequality

/-- The dual of a strictly convex program is symmetric and semidefinite, its form is zero
exactly at the multipliers that the inequalities send to zero, and it has no positive entry
on the diagonal exactly where an inequality has a row of zeros. A call that leaves its
start open, and whose other arguments are in order, is refused for a degenerate diagonal
exactly if there is such a row, and reports the indices of these rows in increasing order;
without one it is solved if its counts and its threshold are within the range of the step
counter. -/
theorem degenerate_on_zero_rows [TextForm ℝ] {p : Inequality ℝ n m} (symmetric : p.H.Symmetric)
    (definite : p.H.Definite) (r : Vec ℝ m) :
    (p.dual r).Q.Symmetric ∧ (p.dual r).Q.Semidefinite ∧
    (∀ v : Vec ℝ m, (p.dual r).Q.form v = 0 ↔ ∀ j, p.A.transpose.apply v j = 0) ∧
    (∀ i, (p.dual r).Q i i ≤ 0 ↔ p.ZeroRow i) ∧
    ∀ (a : Statement ℝ) (b : Literal ℝ) (o : SolveOptions ℝ) (c c' : Config ℝ)
      (u : Option (UpperBound ℝ m)), 1 ≤ m →
      read? a b .missingRightSide = .ok ⟨n, m, p, r⟩ → o.start = .null →
      BoxQP.Statement.bound? m o.bound = .ok u → o.configured? c = .ok c' →
        ((∃ indices, solve? a b o c = .error (.input (.degenerateDiagonal indices))) ↔
          ∃ i, p.ZeroRow i) ∧
        (∀ indices, solve? a b o c = .error (.input (.degenerateDiagonal indices)) →
          indices.Pairwise (· < ·) ∧
          (∀ k, k ∈ indices ↔ ∃ i : Fin m, i.val = k ∧ p.ZeroRow i) ∧
          (Fault.degenerateDiagonal indices).message = some
            ("The default initial guess divides by the diagonal of Q, "
              ++ "which is not positive at indices " ++ indexList indices
              ++ "; supply x0 instead")) ∧
        ((∀ i, ¬ p.ZeroRow i) → c'.Countable o.tracked →
          ∃ sol, solve? a b o c = .ok (c', sol)) := by
  have exact := Factor.apply_solve symmetric definite
  refine ⟨dualBy_symmetric symmetric exact, dualBy_semidefinite symmetric definite exact,
    form_dualBy_eq_zero_iff symmetric definite exact,
    dualBy_diagonal_nonpos_iff symmetric definite exact, ?_⟩
  intro a b o c c' u positive read omitted bounded configured
  have some_row : m ≠ 0 := Nat.one_le_iff_ne_zero.mp positive
  have answer := solve?_of_configured read configured some_row
  rw [omitted] at answer
  have zero_rows (k : Nat) := mem_degenerate_dual_iff (r := r) symmetric definite k
  have refused (indices : List Nat) :
      solve? a b o c = .error (.input (.degenerateDiagonal indices)) ↔
        (p.dual r).degenerate = indices ∧ indices ≠ [] := by
    rw [answer, CallFault.ofInput_eq_error_iff, map_eq_error_iff]
    exact Quadratic.solve?_eq_degenerate_iff bounded c' o.tracked indices
  refine ⟨⟨?_, ?_⟩, ?_, ?_⟩
  · rintro ⟨indices, stopped⟩
    obtain ⟨rfl, unsound⟩ := (refused indices).mp stopped
    obtain ⟨k, member⟩ := List.exists_mem_of_ne_nil _ unsound
    obtain ⟨i, -, zero⟩ := (zero_rows k).mp member
    exact ⟨i, zero⟩
  · rintro ⟨i, zero⟩
    have member := (zero_rows i).mpr ⟨i, rfl, zero⟩
    exact ⟨_, (refused _).mpr ⟨rfl, List.ne_nil_of_mem member⟩⟩
  · intro indices stopped
    obtain ⟨rfl, -⟩ := (refused indices).mp stopped
    exact ⟨Quadratic.degenerate_pairwise _, zero_rows, Fault.message_degenerateDiagonal _⟩
  · intro coefficients countable
    have sound : (p.dual r).degenerate = [] := by
      refine List.eq_nil_iff_forall_not_mem.mpr fun k member => ?_
      obtain ⟨i, -, zero⟩ := (zero_rows k).mp member
      exact coefficients i zero
    rw [answer, Quadratic.solve?_of_sound sound bounded, Problem.answer?_of_countable countable]
    exact ⟨_, rfl⟩

/-- The inequality that is stated twice, with one between that has no coefficients. -/
noncomputable def interrupted : Inequality ℝ 2 3 where
  H := repeated.H
  f := repeated.f
  A := Mat.ofFn fun i _ => if i = 1 then 0 else 1

/-- The repeated rows leave a direction without curvature, but only the row of zeros is
reported. -/
theorem degenerate_on_zero_rows_interrupted :
    letI := wordless
    let r : Vec ℝ 3 := #v[0, 1, 0]
    let o : SolveOptions ℝ :=
      { start := .null, bound := .null, maxSteps := .null, tracked := false, unknown := [] }
    interrupted.H.Symmetric ∧ interrupted.H.Definite ∧
      (interrupted.dual r).Q.form (#v[1, 0, -1] : Vec ℝ 3) = 0 ∧
      0 < (interrupted.dual r).Q 0 0 ∧
      ∃ indices, solve? interrupted.statement (.array (.ofVec r)) o .wideSweeps
          = .error (.input (.degenerateDiagonal indices)) ∧ ∀ k, k ∈ indices ↔ k = 1 := by
  let _ := wordless
  intro r o
  have symmetric : interrupted.H.Symmetric := Quadratic.coupled_symmetric 1
  have definite : interrupted.H.Definite := Quadratic.coupled_definite one_pos
  have entry (i : Fin 3) (j : Fin 2) : interrupted.A i j = if i = 1 then 0 else 1 :=
    Mat.ofFn_apply _ i j
  have zero_row (i : Fin 3) : interrupted.ZeroRow i ↔ i = 1 := by
    simp only [ZeroRow, entry, ite_eq_left_iff, one_ne_zero, imp_false, not_not, forall_const]
  obtain ⟨-, -, flat, diagonal, calls⟩ := degenerate_on_zero_rows symmetric definite r
  obtain ⟨refused, reported, -⟩ :=
    calls interrupted.statement (.array (.ofVec r)) o .wideSweeps .wideSweeps none
      (by decide) (interrupted.read?_statement r _) rfl rfl rfl
  refine ⟨symmetric, definite, ?_, ?_, ?_⟩
  · refine (flat #v[1, 0, -1]).mpr fun j => ?_
    simp only [Mat.apply_real, Mat.transpose_apply, Fin.sum_univ_three, entry]
    change 1 * 1 + 0 * 0 + 1 * (-1) = (0 : ℝ)
    ring
  · by_contra low
    have zero := (diagonal 0).mp (not_lt.mp low)
    exact absurd ((zero_row 0).mp zero) (by decide)
  · obtain ⟨indices, stopped⟩ := refused.mpr ⟨1, (zero_row 1).mpr rfl⟩
    obtain ⟨-, members, -⟩ := reported indices stopped
    refine ⟨indices, stopped, fun k => (members k).trans ⟨?_, ?_⟩⟩
    · rintro ⟨i, rfl, zero⟩
      exact congrArg Fin.val ((zero_row i).mp zero)
    · rintro rfl
      exact ⟨1, rfl, (zero_row 1).mpr rfl⟩

end Inequality

end BoxQP
