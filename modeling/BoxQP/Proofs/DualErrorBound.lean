import BoxQP.Proofs.Answers
import BoxQP.Proofs.Drivers
import BoxQP.Proofs.Duality
import BoxQP.Proofs.Positivity
import BoxQP.Proofs.Residual

/-!
# How far a recovered point is from the least cost

A run on the dual keeps the multipliers non-negative from a non-negative start on,
whenever it stops. The point that is recovered from such multipliers need not be feasible,
but it costs no more than any feasible point and the residual of the dual for each
inequality. So the residual that a solve answers bounds its own error, with or without
convergence.
-/

namespace BoxQP

variable {n m : Nat}

namespace Quadratic

variable {q : Quadratic ℝ n}

theorem diagonal_pos_of_degenerate_eq_nil (sound : q.degenerate = []) (i : Fin n) :
    0 < q.Q i i := by
  have passed := List.filter_eq_nil_iff.mp (List.map_eq_nil_iff.mp sound) i (List.mem_finRange i)
  by_contra low
  exact passed (decide_eq_true (not_lt.mp low))

theorem guess_nonneg (positive : ∀ i, 0 < q.Q i i) (i : Fin n) : 0 ≤ q.guess i := by
  have mean_nonneg : 0 ≤ (∑ j, |q.h j|) / ((n : Int) : ℝ) :=
    div_nonneg (Finset.sum_nonneg fun j _ => abs_nonneg _) (Int.cast_nonneg (Int.natCast_nonneg n))
  rw [guess, Vec.ofFn_apply, sum_real]
  exact div_nonneg (add_nonneg mean_nonneg (abs_nonneg _)) (positive i).le

end Quadratic

/-- A start that is read is not negative, if it is the default one or given so. -/
theorem Statement.start?_nonneg {q : Quadratic ℝ n} {l : Literal ℝ} {x : Vec ℝ n}
    (given : l = .null ∨ ∃ k y, l.vector? "x0" = .ok ⟨k, y⟩ ∧ ∀ i, 0 ≤ y i)
    (read : start? q l = .ok x) (i : Fin n) : 0 ≤ x i := by
  unfold start? at read
  split at read
  · split at read
    · rename_i sound
      cases read
      exact q.guess_nonneg (q.diagonal_pos_of_degenerate_eq_nil sound) i
    · cases read
  · rename_i present
    obtain ⟨k, y, here, nonneg⟩ := given.resolve_left present
    rw [here] at read
    change (if same : k = n then Except.ok (y.cast same) else _) = _ at read
    split at read
    · rename_i same
      subst same
      cases read
      exact nonneg i
    · cases read

namespace Problem

variable (p : Problem ℝ n) (c : Config ℝ) (tracked : Bool)

/-- Wherever a run stops, it has kept a non-negative start from turning negative. -/
theorem solve_nonneg (floor : 0 < c.epsilon) (room : UpperBound.Positive p.bound)
    (start : ∀ i, 0 ≤ p.start i) (i : Fin n) : 0 ≤ (p.solve c tracked).x i := by
  rw [p.solve_x_eq_iterate c tracked]
  cases (p.solve c tracked).steps with
  | zero => exact start i
  | succ k => exact (Split.update_pos c.policy p.objective c.schedule floor room _ i).le

end Problem

namespace Inequality

/-- The point that non-negative multipliers give back costs no more than a feasible point
and the residual of the dual for each inequality. -/
theorem cost_recover_le {p : Inequality ℝ n m} (symmetric : p.H.Symmetric)
    (definite : p.H.Definite) {r lam : Vec ℝ m} (nonneg : ∀ i, 0 ≤ lam i) {z : Vec ℝ n}
    (inside : z ∈ p.feasible r) :
    p.cost (p.recover lam) ≤ p.cost z + m * (p.dual r).residual lam := by
  have exact := Factor.apply_solve symmetric definite
  have balanced : p.Balanced (p.recover lam) lam := balanced_recoverBy exact lam
  have slack (i : Fin m) : (p.dual r).slope lam i = r i - p.A.apply (p.recover lam) i :=
    slope_dualBy symmetric exact lam i
  have gap := balanced.cost_add_form_le symmetric nonneg inside
  have products := (p.dual r).sum_mul_slope_le nonneg
  have curved := definite.semidefinite fun j => z j - p.recover lam j
  simp only [slack] at products
  linarith

/-- Whatever budget a solve has and whether it converges or not, its multipliers are not
negative, and its point costs no more than any feasible one and the residual it answers
for each inequality; where it converges the tolerance takes the place of the residual. -/
theorem solve_error_bound [TextForm ℝ] {a : Statement ℝ} {b : Literal ℝ} {o : SolveOptions ℝ}
    {c c' : Config ℝ} {sol : Solution ℝ} {p : Inequality ℝ n m} {r : Vec ℝ m}
    (read : read? a b .missingRightSide = .ok ⟨n, m, p, r⟩) (symmetric : p.H.Symmetric)
    (definite : p.H.Definite) (floor : 0 < c.epsilon) (unbounded : o.bound = .null)
    (start : o.start = .null ∨
      ∃ k x, o.start.vector? "x0" = .ok ⟨k, x⟩ ∧ ∀ i, 0 ≤ x i)
    (answered : solve? a b o c = .ok (c', sol)) :
    ∃ z dual, sol = { n, z, dual := ⟨m, dual⟩ } ∧ (∀ i, 0 ≤ dual.x i) ∧
      ∀ z' ∈ p.feasible r, p.cost z ≤ p.cost z' + m * dual.residual ∧
        (dual.verdict = .converged → p.cost z < p.cost z' + m * c.tolerance m) := by
  obtain ⟨some_row, ⟨k, rfl⟩, d, objective, started, bounded, rfl⟩ :=
    solve?_ok (decide_eq_true floor) read answered
  have no_bound : d.bound = none := by
    rw [unbounded] at bounded
    exact (Except.ok.inj bounded).symm
  have room : UpperBound.Positive d.bound := by
    rw [no_bound]
    exact fun _ given => nomatch given
  have nonneg := d.solve_nonneg { c with maxSteps := k } o.tracked floor room
    (Statement.start?_nonneg start started)
  refine ⟨_, _, rfl, nonneg, fun z' inside => ?_⟩
  have bound := cost_recover_le symmetric definite nonneg inside
  rw [← objective] at bound
  refine ⟨bound, fun converged => bound.trans_lt ?_⟩
  have small := d.solve_residual_lt _ _ converged
  have rows : (0 : ℝ) < m := Nat.cast_pos.mpr (Nat.pos_of_ne_zero some_row)
  exact add_lt_add_right (mul_lt_mul_of_pos_left small rows) _

section Arrays

variable {α : Type} [Arith α]

/-- A program as it is written in arrays. -/
def statement (p : Inequality α n m) : Statement α where
  H := .array (Tensor.ofMat p.H)
  f := .array (Tensor.ofVec p.f)
  A := .array (Tensor.ofMat p.A)

theorem read?_statement (p : Inequality α n m) (r : Vec α m) (missing : Fault) :
    read? p.statement (.array (Tensor.ofVec r)) missing = .ok ⟨n, m, p, r⟩ := by
  change ofTensors? (some (Tensor.ofMat p.H)) (some (Tensor.ofVec p.f)) (some (Tensor.ofMat p.A))
    (Tensor.ofVec r) = _
  have rows : (Tensor.ofMat p.A).matrixOf? ((Tensor.ofMat p.A).shape.headD 0) n = some p.A :=
    Tensor.matrixOf?_ofMat p.A
  have entries : (Tensor.ofVec r).vectorOf? ((Tensor.ofMat p.A).shape.headD 0) = some r :=
    Tensor.vectorOf?_ofVec r
  simp only [ofTensors?, Tensor.vector?_ofVec, Tensor.matrixOf?_ofMat, rows, entries]
  rfl

/-- A program in arrays that fit each other is solved from any start that is given. -/
theorem solve?_statement [TextForm α] {c : Config α} (p : Inequality α n m) (r lam : Vec α m)
    (positive : 1 ≤ m) (valid : c.Valid) (steppable : c.Steppable) {B : Nat}
    (inside : B < Count.counterBound) (tracked : Bool) :
    let d : Problem α m := { objective := p.dual r, start := lam, bound := none }
    let dual := d.solve (c.withBudget B) tracked
    solve? p.statement (.array (Tensor.ofVec r)) (.stating lam none B tracked) c
      = .ok (c.withBudget B, { n, z := p.recover dual.x, dual := ⟨m, dual⟩ }) := by
  intro d dual
  have read (v : Vec α m) (missing : Fault) := p.read?_statement v missing
  have fits : ∀ t ∈ (none : Option (Tensor α)), UpperBound.Fits m t := fun _ given => nomatch given
  have solved := SolveOptions.solve?_eq (p.dual r) lam positive fits valid steppable inside tracked
  rw [solve?, dual?_eq (read r _)]
  change ((SolveOptions.stating lam none B tracked).solve? c (.array (Tensor.ofMat (p.dual r).Q))
    (.array (Tensor.ofVec (p.dual r).h)) >>= _) = _
  rw [solved]
  change (CallFault.ofInput (recover? p.statement (.array (Tensor.ofVec dual.x))) >>= _) = _
  rw [recover?_ofVec (read dual.x .missingMultipliers)]
  rfl

end Arrays

/-- The real numbers, none of which has a text or a quotient. -/
abbrev wordless : TextForm ℝ where
  read? _ := none
  write _ := ""
  quotient? _ := none

/-- Three sweeps on the dual of the repeated inequality bound the error of their point. -/
theorem solve_error_bound_repeated :
    letI := wordless
    ∃ sol : Solution ℝ, solve? repeated.statement (.array (Tensor.ofVec #v[0, 0]))
        (.stating #v[1, 1] none 3 true) .wideSweeps = .ok (Config.wideSweeps.withBudget 3, sol) ∧
      ∃ z dual, sol = { n := 2, z, dual := ⟨2, dual⟩ } ∧ (∀ i, 0 ≤ dual.x i) ∧
        repeated.cost z ≤ repeated.cost #v[0, 0] + (2 : Nat) * dual.residual := by
  let _ := wordless
  have valid : Config.wideSweeps.Valid :=
    { epsilon_pos := decide_eq_true Config.wideSweeps_floor
      threshold_pos := fun _ given => nomatch given
      checkEvery_pos := le_rfl }
  have symmetric : repeated.H.Symmetric := Quadratic.coupled_symmetric 1
  have definite : repeated.H.Definite := Quadratic.coupled_definite one_pos
  have start (i : Fin 2) : 0 ≤ (#v[1, 1] : Vec ℝ 2) i := by
    fin_cases i
    · exact zero_le_one
    · exact zero_le_one
  have answered := repeated.solve?_statement #v[0, 0] #v[1, 1] one_le_two valid ⟨rfl, nofun⟩
    (show 3 < Count.counterBound by decide +kernel) true
  obtain ⟨z, dual, same, nonneg, bound⟩ := solve_error_bound
    (repeated.read?_statement #v[0, 0] _) symmetric definite Config.wideSweeps_floor rfl
    (Or.inr ⟨2, #v[1, 1], rfl, start⟩) answered
  have inside : (#v[0, 0] : Vec ℝ 2) ∈ repeated.feasible #v[0, 0] :=
    (repeated_conditions zero_le_two le_rfl (add_zero 2)).feasible
  exact ⟨_, answered, z, dual, same, nonneg, (bound _ inside).1⟩

end Inequality

end BoxQP
