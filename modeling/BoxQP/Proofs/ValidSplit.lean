import BoxQP.Proofs.Positivity

/-!
# Validity of a split

Every policy writes the data of an objective as an exact difference of non-negative
parts. Off the diagonal the parts have no entry where the matrix has none; on it both
reach the regularisation. The simple policy never gives an entry to both parts, and the
fill of diagonal dominance outweighs the rest of its row. The matrix may be of any
signature and need not be symmetric, but where it is, so are its parts.
-/

namespace BoxQP

variable {n : Nat}

/-- What is asked of a split of `q` by the policy `p` with the regularisation `ε`. -/
structure Split.Valid (p : Policy) (q : Quadratic ℝ n) (ε : ℝ) (s : Split ℝ n) : Prop where
  differenceQ : ∀ i j, s.posQ i j - s.negQ i j = q.Q i j
  differenceH : ∀ i, s.posH i - s.negH i = q.h i
  nonnegQ : ∀ i j, 0 ≤ s.posQ i j ∧ 0 ≤ s.negQ i j
  nonnegH : ∀ i, 0 ≤ s.posH i ∧ 0 ≤ s.negH i
  diagonal : ∀ i, max (q.Q i i) 0 + ε ≤ s.posQ i i ∧ ε ≤ s.negQ i i
  sparse : ∀ i j, i ≠ j → q.Q i j = 0 → s.posQ i j = 0 ∧ s.negQ i j = 0
  symmetric : q.Q.Symmetric → s.posQ.Symmetric ∧ s.negQ.Symmetric
  disjoint : p = .simple → ∀ i j, i ≠ j → s.posQ i j * s.negQ i j = 0
  dominant : p = .diagonalDominance → ∀ i, ∑ j ∈ Finset.univ.erase i, s.negQ i j < s.negQ i i

theorem Policy.positivePart_eq_zero (p : Policy) {Q : Mat ℝ n n} {i j : Fin n} (apart : i ≠ j)
    (zero : Q i j = 0) : p.positivePart Q i j = 0 := by
  cases p with
  | simple => rw [positivePart_simple, zero, max_self]
  | absValue => rw [positivePart_absValue, zero, abs_zero]
  | diagonalDominance =>
    rw [positivePart_diagonalDominance, zero, max_self, if_neg apart, add_zero]

namespace Split

variable (p : Policy) (q : Quadratic ℝ n) {ε : ℝ} {i j : Fin n}

theorem posQ_self : (build p q ε).posQ i i = p.positivePart q.Q i i + ε := by
  rw [posQ_real, if_pos rfl]

theorem posQ_of_ne (apart : i ≠ j) : (build p q ε).posQ i j = p.positivePart q.Q i j := by
  rw [posQ_real, if_neg apart, add_zero]

theorem negQ_of_ne (apart : i ≠ j) :
    (build p q ε).negQ i j = p.positivePart q.Q i j - q.Q i j := by
  rw [negQ_real, posQ_of_ne p q apart]

theorem max_add_le_posQ_self : max (q.Q i i) 0 + ε ≤ (build p q ε).posQ i i := by
  rw [posQ_self]
  exact add_le_add_left (p.max_le_positivePart q.Q i i) ε

theorem parts_eq_zero (apart : i ≠ j) (zero : q.Q i j = 0) :
    (build p q ε).posQ i j = 0 ∧ (build p q ε).negQ i j = 0 := by
  have none_taken := p.positivePart_eq_zero apart zero
  constructor
  · rw [posQ_of_ne p q apart, none_taken]
  · rw [negQ_of_ne p q apart, none_taken, zero, sub_zero]

variable {q}

theorem posQ_symmetric (symmetric : q.Q.Symmetric) : (build p q ε).posQ.Symmetric := by
  intro i j
  by_cases same : i = j
  · subst same
    rfl
  · rw [posQ_of_ne p q same, posQ_of_ne p q (Ne.symm same), p.positivePart_symmetric symmetric i j]

theorem negQ_symmetric (symmetric : q.Q.Symmetric) : (build p q ε).negQ.Symmetric := by
  intro i j
  rw [negQ_real, negQ_real, posQ_symmetric p symmetric i j, symmetric i j]

variable (q)

/-- Off the diagonal the simple policy gives an entry to one part only, by its sign. -/
theorem simple_mul_eq_zero (apart : i ≠ j) :
    (build .simple q ε).posQ i j * (build .simple q ε).negQ i j = 0 := by
  rw [posQ_of_ne _ q apart, negQ_of_ne _ q apart, Policy.positivePart_simple]
  rcases le_total (q.Q i j) 0 with negative | positive
  · rw [max_eq_right negative, zero_mul]
  · rw [max_eq_left positive, sub_self, mul_zero]

/-- Under diagonal dominance the own entry takes the rest of the row of the negative
part, its own deficit twice and the regularisation. -/
theorem dominant_negQ_self :
    (build .diagonalDominance q ε).negQ i i
      = ∑ j ∈ Finset.univ.erase i, (build .diagonalDominance q ε).negQ i j
        + 2 * (max (q.Q i i) 0 - q.Q i i) + ε := by
  have row : ∑ j ∈ Finset.univ.erase i, (build .diagonalDominance q ε).negQ i j
      = ∑ j ∈ Finset.univ.erase i, (max (q.Q i j) 0 - q.Q i j) := by
    refine Finset.sum_congr rfl fun j other => ?_
    have apart : i ≠ j := (Finset.ne_of_mem_erase other).symm
    rw [negQ_of_ne _ q apart, Policy.positivePart_diagonalDominance, if_neg apart, add_zero]
  rw [row, negQ_real, posQ_self, Policy.positivePart_diagonalDominance, if_pos rfl,
    ← Finset.add_sum_erase _ _ (Finset.mem_univ i)]
  ring

theorem dominant_sum_lt_self (floor : 0 < ε) :
    ∑ j ∈ Finset.univ.erase i, (build .diagonalDominance q ε).negQ i j
      < (build .diagonalDominance q ε).negQ i i := by
  have deficit : 0 ≤ max (q.Q i i) 0 - q.Q i i := sub_nonneg.mpr (le_max_left _ _)
  rw [dominant_negQ_self]
  linarith

/-- Whatever the policy and whatever the matrix, the split that is built is a valid one. -/
theorem build_valid (floor : 0 < ε) : (build p q ε).Valid p q ε where
  differenceQ i j := by rw [negQ_real, sub_sub_cancel]
  differenceH i := by rw [negH_real, sub_sub_cancel]
  nonnegQ i j := ⟨posQ_nonneg p q i j floor.le, negQ_nonneg p q i j floor.le⟩
  nonnegH i := ⟨posH_nonneg p q i floor.le, negH_nonneg p q i floor.le⟩
  diagonal i := ⟨max_add_le_posQ_self p q, le_negQ_self p q i⟩
  sparse i j apart zero := parts_eq_zero p q apart zero
  symmetric matrix := ⟨posQ_symmetric p matrix, negQ_symmetric p matrix⟩
  disjoint simple i j apart := by
    subst simple
    exact simple_mul_eq_zero q apart
  dominant filled i := by
    subst filled
    exact dominant_sum_lt_self q floor

end Split

/-- A matrix that is not symmetric, with a zero and a negative number on its diagonal. -/
theorem Split.build_valid_lopsided :
    let q := Problem.lopsided.objective
    (0 : ℝ) < 1 / 2 ∧ ¬ q.Q.Symmetric ∧ q.Q 1 1 < 0 ∧
      ∀ p : Policy, (Split.build p q (1 / 2)).Valid p q (1 / 2) := by
  intro q
  have floor : (0 : ℝ) < 1 / 2 := by norm_num
  have uneven : ¬ q.Q.Symmetric := by
    intro symmetric
    have corner : (-1 : ℝ) = 1 + 1 := symmetric 0 1
    norm_num at corner
  have negative : (-1 : ℝ) < 0 := by norm_num
  exact ⟨floor, uneven, negative, fun p => Split.build_valid p q floor⟩

end BoxQP
