import BoxQP.Proofs.Residual
import BoxQP.Proofs.TriangularSweep
import Mathlib.Order.Fin.Basic

/-!
# Blocks of variables

A block is a set of the variables in their order, and it is closed when the rows of its
variables have no entries for the others. In exact arithmetic each stage of an iteration
restricts to a closed block: the parts of a split with the sums over rows that they take,
the gradients, the bound and either schedule. A run on the whole problem then shows on the
block what the block does by itself, in any number of steps. Two closed blocks that make up
all variables share nothing, and the value and the residual of the whole are the sum and
the maximum of theirs.
-/

namespace BoxQP

open UpperBound

section Definitions

variable {α : Type} {m n : Nat} (e : Fin m ↪o Fin n)

/-- The entries of the variables of a block. -/
def Vec.restrict (v : Vec α n) : Vec α m := Vec.ofFn fun i => v (e i)

def Mat.restrict (M : Mat α n n) : Mat α m m := Mat.ofFn fun i j => M (e i) (e j)

def Quadratic.restrict (q : Quadratic α n) : Quadratic α m where
  Q := q.Q.restrict e
  h := q.h.restrict e

def UpperBound.restrict : UpperBound α n → UpperBound α m
  | .uniform u => .uniform u
  | .each u => .each (u.restrict e)

def Split.restrict (s : Split α n) : Split α m where
  posQ := s.posQ.restrict e
  negQ := s.negQ.restrict e
  posH := s.posH.restrict e
  negH := s.negH.restrict e

def Problem.restrict (p : Problem α n) : Problem α m where
  objective := p.objective.restrict e
  start := p.start.restrict e
  bound := p.bound.map (UpperBound.restrict e)

@[simp]
theorem Vec.restrict_apply (v : Vec α n) (i : Fin m) : v.restrict e i = v (e i) :=
  Vec.ofFn_apply _ i

@[simp]
theorem Mat.restrict_apply (M : Mat α n n) (i j : Fin m) : M.restrict e i j = M (e i) (e j) :=
  Mat.ofFn_apply _ i j

theorem UpperBound.cap_restrict [Arith α] (bound : Option (UpperBound α n)) (i : Fin m) (y : α) :
    cap (bound.map (UpperBound.restrict e)) i y = cap bound (e i) y := by
  rcases bound with - | u | u
  · rfl
  · rfl
  · exact congrArg (Arith.min y) (Vec.restrict_apply e u i)

theorem Vec.floored_restrict [Arith α] (x : Vec α n) (epsilon : α) :
    (x.floored epsilon).restrict e = (x.restrict e).floored epsilon := by
  refine Vec.ext_apply fun i => ?_
  simp only [Vec.restrict_apply, Split.floored_apply]

/-- The variables of a block come in the order that they have among all. -/
theorem Vec.splice_restrict (y c : Vec α n) (i : Fin m) :
    (splice (e i) y c).restrict e = splice i (y.restrict e) (c.restrict e) := by
  refine Vec.ext_apply fun j => ?_
  have order : (e j).val < (e i).val ↔ j.val < i.val := e.lt_iff_lt
  simp only [splice, Vec.restrict_apply, Vec.ofFn_apply, order]

end Definitions

section Exact

variable {m n : Nat} (e : Fin m ↪o Fin n)

/-- The rows of the block have no entries outside of it. -/
def Mat.Closed (M : Mat ℝ n n) : Prop := ∀ i j, j ∉ Set.range e → M (e i) j = 0

structure Split.Closed (s : Split ℝ n) : Prop where
  posQ : s.posQ.Closed e
  negQ : s.negQ.Closed e

variable {e}

theorem Mat.Closed.sum_mul {M : Mat ℝ n n} (closed : M.Closed e) (x : Vec ℝ n) (i : Fin m) :
    ∑ j, M (e i) j * x j = ∑ j, M.restrict e i j * x.restrict e j := by
  refine (Fintype.sum_of_injective e e.injective _ _ (fun j outside => ?_) fun j => ?_).symm
  · rw [closed i j outside, zero_mul]
  · rw [Mat.restrict_apply, Vec.restrict_apply]

/-- The fill of diagonal dominance takes nothing from outside a closed block. -/
theorem Policy.positivePart_restrict (p : Policy) {Q : Mat ℝ n n} (closed : Q.Closed e)
    (i j : Fin m) : p.positivePart (Q.restrict e) i j = p.positivePart Q (e i) (e j) := by
  cases p with
  | simple => simp only [positivePart_simple, Mat.restrict_apply]
  | absValue => simp only [positivePart_absValue, Mat.restrict_apply]
  | diagonalDominance =>
    have row : ∑ k, (max (Q (e i) (e k)) 0 - Q (e i) (e k))
        = ∑ k, (max (Q (e i) k) 0 - Q (e i) k) := by
      refine Fintype.sum_of_injective e e.injective _ _ (fun k outside => ?_) fun _ => rfl
      rw [closed i k outside, max_self, sub_self]
    simp only [positivePart_diagonalDominance, Mat.restrict_apply, row, e.injective.eq_iff]

namespace Split

theorem build_restrict (p : Policy) {q : Quadratic ℝ n} (closed : q.Q.Closed e) (ε : ℝ) :
    (build p q ε).restrict e = build p (q.restrict e) ε := by
  have posQ : (build p q ε).posQ.restrict e = (build p (q.restrict e) ε).posQ := by
    refine Vec.ext_apply fun i => Vec.ext_apply fun j => ?_
    rw [Mat.restrict_apply, build_posQ, build_posQ]
    simp only [Quadratic.restrict, p.positivePart_restrict closed, e.injective.eq_iff]
  have posH : (build p q ε).posH.restrict e = (build p (q.restrict e) ε).posH := by
    refine Vec.ext_apply fun i => ?_
    simp only [Vec.restrict_apply, build_posH, Quadratic.restrict]
  have negQ : (build p q ε).negQ.restrict e = (build p (q.restrict e) ε).negQ := by
    refine Vec.ext_apply fun i => Vec.ext_apply fun j => ?_
    rw [Mat.restrict_apply, build_negQ, build_negQ, ← posQ, Mat.restrict_apply]
    simp only [Quadratic.restrict, Mat.restrict_apply]
  have negH : (build p q ε).negH.restrict e = (build p (q.restrict e) ε).negH := by
    refine Vec.ext_apply fun i => ?_
    rw [Vec.restrict_apply, build_negH, build_negH, ← posH, Vec.restrict_apply]
    simp only [Quadratic.restrict, Vec.restrict_apply]
  rw [restrict, posQ, negQ, posH, negH]

theorem build_closed (p : Policy) {q : Quadratic ℝ n} (closed : q.Q.Closed e) (ε : ℝ) :
    (build p q ε).Closed e := by
  have parts (i : Fin m) (j : Fin n) (outside : j ∉ Set.range e) :=
    parts_eq_zero (ε := ε) p q (fun same => outside ⟨i, same⟩) (closed i j outside)
  exact ⟨fun i j outside => (parts i j outside).1, fun i j outside => (parts i j outside).2⟩

variable {s : Split ℝ n} {bound : Option (UpperBound ℝ n)} {x : Vec ℝ n} {ε : ℝ}

theorem Closed.coordinate_restrict (closed : s.Closed e) (i : Fin m) :
    (s.restrict e).coordinate (bound.map (UpperBound.restrict e)) (x.restrict e) i
      = s.coordinate bound x (e i) := by
  have growth : s.growth x (e i) = (s.restrict e).growth (x.restrict e) i := by
    rw [growth_real, growth_real, closed.negQ.sum_mul]
    simp only [restrict, Vec.restrict_apply]
  have decay : s.decay x (e i) = (s.restrict e).decay (x.restrict e) i := by
    rw [decay_real, decay_real, closed.posQ.sum_mul]
    simp only [restrict, Vec.restrict_apply]
  rw [coordinate_real, coordinate_real, cap_restrict, growth, decay, Vec.restrict_apply]

/-- On a closed block a sweep over all variables is the sweep over the block, whatever it
does before, between and after. -/
theorem Closed.sweep_restrict (closed : s.Closed e) :
    (s.sweep ε bound x).restrict e
      = (s.restrict e).sweep ε (bound.map (UpperBound.restrict e)) (x.restrict e) := by
  let y := s.sweep ε bound x
  let c := x.floored ε
  symm
  refine sweepTo_eq_iff.mpr fun i => ?_
  have solved : y (e i) = s.coordinate bound (Vec.splice (e i) y c) (e i) :=
    sweepTo_eq_iff.mp rfl (e i)
  rw [Vec.restrict_apply, ← Vec.floored_restrict, ← Vec.splice_restrict,
    closed.coordinate_restrict]
  exact solved

theorem Closed.update_restrict (closed : s.Closed e) (o : Schedule) :
    (s.update o ε bound x).restrict e
      = (s.restrict e).update o ε (bound.map (UpperBound.restrict e)) (x.restrict e) := by
  cases o with
  | gaussSeidel => exact closed.sweep_restrict
  | synchronous =>
    refine Vec.ext_apply fun i => ?_
    change (s.synchronous ε bound x).restrict e i = _
    rw [Vec.restrict_apply, synchronous_apply, ← closed.coordinate_restrict,
      Vec.floored_restrict]
    exact (synchronous_apply _ ε _ _ i).symm

end Split

namespace Problem

variable {p : Problem ℝ n}

/-- A run on the whole problem shows on a closed block the run of the block by itself. -/
theorem iterate_restrict (closed : p.objective.Q.Closed e) (c : Config ℝ) (k : Nat) :
    ((p.iteration c).iterate p.start k).restrict e
      = ((p.restrict e).iteration c).iterate (p.restrict e).start k := by
  induction k with
  | zero => rfl
  | succ k ih =>
    let x := (p.iteration c).iterate p.start k
    let s := Split.build c.policy p.objective c.epsilon
    have step : (s.update c.schedule c.epsilon p.bound x).restrict e
        = (s.restrict e).update c.schedule c.epsilon (p.restrict e).bound (x.restrict e) :=
      (Split.build_closed c.policy closed c.epsilon).update_restrict c.schedule
    rw [Split.build_restrict c.policy closed c.epsilon, ih] at step
    exact step

end Problem

namespace Quadratic

variable (q : Quadratic ℝ n) (x : Vec ℝ n)

/-- What coordinate `i` contributes to twice the value. -/
noncomputable def share (i : Fin n) : ℝ := x i * (q.slope x i - q.h i)

theorem value_eq_sum_share : q.value x = 1 / 2 * ∑ i, q.share x i := by
  have term (i : Fin n) :
      q.share x i = ∑ j, x i * q.Q i j * x j - (q.h i * x i + q.h i * x i) := by
    simp only [share, slope_real, mul_assoc, ← Finset.mul_sum]
    ring
  simp only [term, Finset.sum_sub_distrib, Finset.sum_add_distrib]
  rw [value_real, Mat.form]
  ring

variable {q}

theorem slope_restrict (closed : q.Q.Closed e) (i : Fin m) :
    (q.restrict e).slope (x.restrict e) i = q.slope x (e i) := by
  rw [slope_real, slope_real, closed.sum_mul]
  simp only [restrict, Vec.restrict_apply]

theorem share_restrict (closed : q.Q.Closed e) (i : Fin m) :
    (q.restrict e).share (x.restrict e) i = q.share x (e i) := by
  rw [share, share, slope_restrict x closed]
  simp only [restrict, Vec.restrict_apply]

theorem complementarity_restrict (closed : q.Q.Closed e) :
    (q.restrict e).complementarity (x.restrict e) = (q.complementarity x).restrict e := by
  refine Vec.ext_apply fun i => ?_
  simp only [complementarity_apply, Vec.restrict_apply, slope_restrict x closed]

end Quadratic

end Exact

section Pairs

variable {a b : Nat}

namespace Vec

variable {α : Type}

theorem append_castAdd (u : Vec α a) (v : Vec α b) (i : Fin a) :
    (u ++ v) (Fin.castAdd b i) = u i := Vector.getElem_append_left i.isLt

theorem append_natAdd (u : Vec α a) (v : Vec α b) (i : Fin b) :
    (u ++ v) (Fin.natAdd a i) = v i := by
  refine (Vector.getElem_append_right _ (Nat.le_add_right a i)).trans ?_
  exact congrArg v (Fin.ext (Nat.add_sub_cancel_left a i))

/-- A vector is made up of its first `a` and its last `b` entries. -/
theorem restrict_append_restrict (v : Vec α (a + b)) :
    v.restrict (Fin.castAddOrderEmb b) ++ v.restrict (Fin.natAddOrderEmb a) = v := by
  refine ext_apply fun i => ?_
  cases i using Fin.addCases with
  | left i => rw [append_castAdd, restrict_apply, Fin.castAddOrderEmb_apply]
  | right i => rw [append_natAdd, restrict_apply, Fin.natAddOrderEmb_apply]

theorem largest_lt_iff_of_pos {n : Nat} (positive : 1 ≤ n) (v : Vec ℝ n) (t : ℝ) :
    v.largest < t ↔ ∀ i, v i < t := by
  cases n with
  | zero => exact absurd positive (by decide)
  | succ n => exact largest_lt_iff v t

/-- The largest entry is the larger one of those of two parts that have entries. -/
theorem largest_eq_max (first : 1 ≤ a) (second : 1 ≤ b) (v : Vec ℝ (a + b)) :
    v.largest
      = max (v.restrict (Fin.castAddOrderEmb b)).largest
          (v.restrict (Fin.natAddOrderEmb a)).largest := by
  refine eq_of_forall_gt_iff fun t => ?_
  rw [max_lt_iff, largest_lt_iff_of_pos first, largest_lt_iff_of_pos second,
    largest_lt_iff_of_pos (first.trans (Nat.le_add_right a b))]
  simp only [restrict_apply]
  constructor
  · intro low
    exact ⟨fun i => low _, fun i => low _⟩
  · rintro ⟨low_first, low_second⟩ i
    cases i using Fin.addCases with
    | left i => exact low_first i
    | right i => exact low_second i

end Vec

/-- The matrix has no entries between the first `a` and the last `b` variables. -/
def Mat.BlockDiagonal (Q : Mat ℝ (a + b) (a + b)) : Prop :=
  ∀ (i : Fin a) (j : Fin b),
    Q (Fin.castAdd b i) (Fin.natAdd a j) = 0 ∧ Q (Fin.natAdd a j) (Fin.castAdd b i) = 0

namespace Mat.BlockDiagonal

variable {Q : Mat ℝ (a + b) (a + b)}

theorem closed_first (apart : Q.BlockDiagonal) : Q.Closed (Fin.castAddOrderEmb b) := by
  intro i j outside
  cases j using Fin.addCases with
  | left j => exact absurd ⟨j, rfl⟩ outside
  | right j => exact (apart i j).1

theorem closed_second (apart : Q.BlockDiagonal) : Q.Closed (Fin.natAddOrderEmb a) := by
  intro i j outside
  cases j using Fin.addCases with
  | left j => exact (apart j i).2
  | right j => exact absurd ⟨j, rfl⟩ outside

end Mat.BlockDiagonal

/-- Where the matrix couples no variable of the first block to one of the second, the run
of the whole problem is the two runs of the blocks side by side, under either schedule,
every policy and every bound. The values of the blocks add up at each iterate, and the
residual is the larger one of theirs. -/
theorem decoupled_blocks_run_apart (first : 1 ≤ a) (second : 1 ≤ b) (p : Problem ℝ (a + b))
    (apart : p.objective.Q.BlockDiagonal) (c : Config ℝ) (k : Nat) :
    let p₁ : Problem ℝ a := p.restrict (Fin.castAddOrderEmb b)
    let p₂ : Problem ℝ b := p.restrict (Fin.natAddOrderEmb a)
    let x := (p.iteration c).iterate p.start k
    let x₁ := (p₁.iteration c).iterate p₁.start k
    let x₂ := (p₂.iteration c).iterate p₂.start k
    x = x₁ ++ x₂ ∧
      p.objective.value x = p₁.objective.value x₁ + p₂.objective.value x₂ ∧
      p.objective.residual x = max (p₁.objective.residual x₁) (p₂.objective.residual x₂) := by
  intro p₁ p₂ x x₁ x₂
  have closed₁ := apart.closed_first
  have closed₂ := apart.closed_second
  have run₁ : x.restrict (Fin.castAddOrderEmb b) = x₁ := p.iterate_restrict closed₁ c k
  have run₂ : x.restrict (Fin.natAddOrderEmb a) = x₂ := p.iterate_restrict closed₂ c k
  refine ⟨?_, ?_, ?_⟩
  · rw [← run₁, ← run₂, Vec.restrict_append_restrict]
  · have shares₁ (i : Fin a) :
        p₁.objective.share x₁ i = p.objective.share x (Fin.castAdd b i) := by
      rw [← run₁]
      exact Quadratic.share_restrict x closed₁ i
    have shares₂ (j : Fin b) :
        p₂.objective.share x₂ j = p.objective.share x (Fin.natAdd a j) := by
      rw [← run₂]
      exact Quadratic.share_restrict x closed₂ j
    simp only [Quadratic.value_eq_sum_share, shares₁, shares₂]
    rw [← mul_add, Fin.sum_univ_add]
  · have terms₁ : p₁.objective.complementarity x₁
        = (p.objective.complementarity x).restrict (Fin.castAddOrderEmb b) := by
      rw [← run₁]
      exact Quadratic.complementarity_restrict x closed₁
    have terms₂ : p₂.objective.complementarity x₂
        = (p.objective.complementarity x).restrict (Fin.natAddOrderEmb a) := by
      rw [← run₂]
      exact Quadratic.complementarity_restrict x closed₂
    rw [Quadratic.residual, Quadratic.residual, Quadratic.residual, terms₁, terms₂]
    exact Vec.largest_eq_max first second _

end Pairs

/-- One unknown beside two coupled ones, with an indefinite matrix, a start of both signs
and a bound for each. -/
noncomputable def Problem.uncoupled : Problem ℝ (1 + 2) where
  objective :=
    { Q := #v[#v[1 + 1, 0, 0], #v[0, 1, -1], #v[0, 1 + 1, -1]], h := #v[1, -1, 1 + 1] }
  start := #v[1, -1, 1 + 1]
  bound := some (.each #v[1, 1 + 1, 1])

/-- Sweeps with diagonal dominance, which sum over whole rows and cross the border of the
blocks. -/
theorem decoupled_blocks_run_apart_uncoupled :
    let p := Problem.uncoupled
    let p₁ : Problem ℝ 1 := p.restrict (Fin.castAddOrderEmb 2)
    let p₂ : Problem ℝ 2 := p.restrict (Fin.natAddOrderEmb 1)
    let c := Config.wideSweeps
    1 ≤ 1 ∧ 1 ≤ 2 ∧ p.objective.Q.BlockDiagonal ∧ ∀ k,
      let x := (p.iteration c).iterate p.start k
      let x₁ := (p₁.iteration c).iterate p₁.start k
      let x₂ := (p₂.iteration c).iterate p₂.start k
      x = x₁ ++ x₂ ∧
        p.objective.value x = p₁.objective.value x₁ + p₂.objective.value x₂ ∧
        p.objective.residual x
          = max (p₁.objective.residual x₁) (p₂.objective.residual x₂) := by
  intro p p₁ p₂ c
  have apart : p.objective.Q.BlockDiagonal :=
    Fin.forall_fin_one.mpr (Fin.forall_fin_two.mpr ⟨⟨rfl, rfl⟩, ⟨rfl, rfl⟩⟩)
  exact ⟨le_rfl, one_le_two, apart,
    fun k => decoupled_blocks_run_apart le_rfl one_le_two p apart c k⟩

end BoxQP
