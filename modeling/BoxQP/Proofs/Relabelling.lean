import BoxQP.Proofs.Acceptance
import BoxQP.Proofs.Residual
import Mathlib.Algebra.BigOperators.Group.Finset.Basic
import Mathlib.Logic.Equiv.Basic

/-!
# Relabelled variables

The variables of a problem are put in another order by a permutation of the indices. In
exact arithmetic each stage of a solve goes along with it: the standard start with its
mean, the split with its sums over rows, the synchronous update and the bound. A run on
the relabelled problem is then the relabelled run, of any length, with the same values,
looks and end. A sweep is not considered: it goes through the coordinates in their order.
-/

namespace BoxQP

open UpperBound

section Definitions

variable {α : Type} {n : Nat} (s : Equiv.Perm (Fin n))

/-- The entry that is found at `i` is the one of `s i`. -/
def Vec.relabel (v : Vec α n) : Vec α n := Vec.ofFn fun i => v (s i)

def Mat.relabel (M : Mat α n n) : Mat α n n := Vec.ofFn fun i => Vec.relabel s (M (s i))

def Quadratic.relabel (q : Quadratic α n) : Quadratic α n where
  Q := q.Q.relabel s
  h := q.h.relabel s

def UpperBound.relabel : UpperBound α n → UpperBound α n
  | .uniform u => .uniform u
  | .each u => .each (u.relabel s)

def Split.relabel (p : Split α n) : Split α n where
  posQ := p.posQ.relabel s
  negQ := p.negQ.relabel s
  posH := p.posH.relabel s
  negH := p.negH.relabel s

def Problem.relabel (p : Problem α n) : Problem α n where
  objective := p.objective.relabel s
  start := p.start.relabel s
  bound := p.bound.map (UpperBound.relabel s)

/-- Only the iterate knows the order of the variables. -/
def Iteration.Progress.relabel (p : Iteration.Progress α n) : Iteration.Progress α n :=
  { p with x := p.x.relabel s }

def Solution.relabel (a : Solution α n) : Solution α n := { a with x := a.x.relabel s }

@[simp]
theorem Vec.relabel_apply (v : Vec α n) (i : Fin n) : v.relabel s i = v (s i) := Vec.ofFn_apply _ i

theorem Mat.relabel_row (M : Mat α n n) (i : Fin n) : M.relabel s i = Vec.relabel s (M (s i)) :=
  Vec.ofFn_apply _ i

@[simp]
theorem Mat.relabel_apply (M : Mat α n n) (i j : Fin n) : M.relabel s i j = M (s i) (s j) := by
  rw [Mat.relabel_row, Vec.relabel_apply]

@[simp]
theorem UpperBound.relabel_limit (b : UpperBound α n) (i : Fin n) :
    (b.relabel s).limit i = b.limit (s i) := by
  cases b with
  | uniform u => rfl
  | each u => exact Vec.relabel_apply s u i

theorem UpperBound.cap_relabel [Arith α] (b : Option (UpperBound α n)) (i : Fin n) (y : α) :
    cap (b.map (UpperBound.relabel s)) i y = cap b (s i) y := by
  cases b with
  | none => rfl
  | some b => exact congrArg (Arith.min y) (b.relabel_limit s i)

theorem Vec.floored_relabel [Arith α] (x : Vec α n) (epsilon : α) :
    (x.relabel s).floored epsilon = (x.floored epsilon).relabel s := by
  refine Vec.ext_apply fun i => ?_
  simp only [Split.floored_apply, Vec.relabel_apply]

/-- A bound is relabelled as it is written, whether it is read as one number or as several. -/
theorem UpperBound.reading_relabel (bound : Option (UpperBound α n)) :
    reading n ((bound.map (UpperBound.relabel s)).map toTensor)
      = (reading n (bound.map toTensor)).map (UpperBound.relabel s) := by
  rcases bound with - | u | u
  · rfl
  · rfl
  · have size_eq (v : Vec α n) : (each v).toTensor.size = n := Shape.volume_singleton n
    change ofEntries? n (each (u.relabel s)).toTensor
      = (ofEntries? n (each u).toTensor).map (UpperBound.relabel s)
    -- The single entry for one variable is read as a number for all of them.
    by_cases single : n = 1
    · subst single
      refine congrArg (some ∘ UpperBound.uniform) ((u.relabel_apply s 0).trans ?_)
      exact congrArg u (Subsingleton.elim _ _)
    · rw [ofEntries?, ofEntries?, dif_neg (by rwa [size_eq]), dif_pos (size_eq _),
        dif_neg (by rwa [size_eq]), dif_pos (size_eq _)]
      rfl

end Definitions

section Runs

variable {α : Type} [Arith α] {n : Nat} {s : Equiv.Perm (Fin n)} {it it' : Iteration α n}

/-- One iteration is the other with its variables relabelled. -/
structure Iteration.Relabels (s : Equiv.Perm (Fin n)) (it it' : Iteration α n) : Prop where
  next : ∀ x : Vec α n, it'.next (x.relabel s) = (it.next x).relabel s
  value : ∀ x : Vec α n, it'.value (x.relabel s) = it.value x
  residual : ∀ x : Vec α n, it'.residual (x.relabel s) = it.residual x

namespace Iteration.Relabels

theorem begin_eq (relabels : it.Relabels s it') (budget : Nat) (tracked : Bool) (x : Vec α n) :
    it'.begin budget tracked (x.relabel s) = (it.begin budget tracked x).relabel s := by
  simp only [begin, relabels.value]
  rfl

theorem advance_eq (relabels : it.Relabels s it') (r : StopRule α) (p : Progress α n) :
    it'.advance r (p.relabel s) = (it.advance r p).relabel s := by
  simp only [advance, Progress.relabel, relabels.next, relabels.value, relabels.residual]
  split <;> rfl

/-- The relabelled run makes the same looks and ends after the same number of steps. -/
theorem run_eq (relabels : it.Relabels s it') (r : StopRule α) (budget : Nat) (p : Progress α n) :
    it'.run r budget (p.relabel s) = (it.run r budget p).relabel s := by
  induction budget generalizing p with
  | zero => rfl
  | succ budget ih =>
    cases ended : p.converged with
    | true =>
      rw [run_of_converged it r _ p ended]
      exact run_of_converged it' r _ (p.relabel s) ended
    | false =>
      rw [run_succ it r _ p ended, ← ih, ← relabels.advance_eq]
      exact run_succ it' r budget (p.relabel s) ended

end Iteration.Relabels

/-- Where its iteration is relabelled, so is the answer to a problem. -/
theorem Problem.solve_relabel_of_relabels {p : Problem α n} {c : Config α}
    (relabels : (p.iteration c).Relabels s ((p.relabel s).iteration c)) (tracked : Bool) :
    (p.relabel s).solve c tracked = (p.solve c tracked).relabel s := by
  have final_eq : (p.relabel s).final c tracked = (p.final c tracked).relabel s := by
    rw [final, final, ← relabels.run_eq, ← relabels.begin_eq]
    rfl
  have residual_eq : (p.relabel s).objective.residual ((p.final c tracked).x.relabel s)
      = p.objective.residual (p.final c tracked).x := relabels.residual _
  simp only [solve, final_eq, Solution.relabel, Iteration.Progress.relabel, residual_eq]

end Runs

section Exact

variable {n : Nat} (s : Equiv.Perm (Fin n))

theorem Vec.dot_relabel (u v : Vec ℝ n) : Vec.dot (u.relabel s) (v.relabel s) = Vec.dot u v := by
  simp only [Vec.dot_real, Vec.relabel_apply]
  exact Equiv.sum_comp s fun i => u i * v i

theorem Mat.apply_relabel (M : Mat ℝ n n) (x : Vec ℝ n) :
    (M.relabel s).apply (x.relabel s) = (M.apply x).relabel s := by
  refine Vec.ext_apply fun i => ?_
  rw [Mat.apply_apply, Mat.relabel_row, Vec.dot_relabel, Vec.relabel_apply, Mat.apply_apply]

/-- The largest entry does not depend on the order of the entries. -/
theorem Vec.largest_relabel (v : Vec ℝ n) : (v.relabel s).largest = v.largest := by
  cases n with
  | zero => rfl
  | succ n =>
    refine eq_of_forall_gt_iff fun t => ?_
    rw [Vec.largest_lt_iff, Vec.largest_lt_iff]
    simp only [Vec.relabel_apply]
    exact ⟨fun low i => s.apply_symm_apply i ▸ low (s.symm i), fun low i => low (s i)⟩

namespace Quadratic

variable (q : Quadratic ℝ n) (x : Vec ℝ n)

theorem value_relabel : (q.relabel s).value (x.relabel s) = q.value x := by
  simp only [value, relabel, Mat.apply_relabel, Vec.dot_relabel]

theorem slope_relabel (i : Fin n) : (q.relabel s).slope (x.relabel s) i = q.slope x (s i) := by
  simp only [slope_apply, relabel, Mat.relabel_row, Vec.dot_relabel, Vec.relabel_apply]

theorem residual_relabel : (q.relabel s).residual (x.relabel s) = q.residual x := by
  have terms : (q.relabel s).complementarity (x.relabel s) = (q.complementarity x).relabel s := by
    refine Vec.ext_apply fun i => ?_
    simp only [complementarity_apply, slope_relabel, Vec.relabel_apply]
  rw [residual, terms, Vec.largest_relabel]
  rfl

/-- The mean in the standard start is over all variables. -/
theorem guess_relabel : (q.relabel s).guess = q.guess.relabel s := by
  refine Vec.ext_apply fun i => ?_
  have total : (∑ j, |q.h (s j)|) = ∑ j, |q.h j| := Equiv.sum_comp s fun j => |q.h j|
  have entry (r : Quadratic ℝ n) (k : Fin n) :
      r.guess k = ((∑ j, |r.h j|) / (n : Int) + |r.h k|) / r.Q k k := by
    rw [guess, Vec.ofFn_apply, sum_real]
    rfl
  simp only [Vec.relabel_apply, entry, relabel, Mat.relabel_apply, total]

theorem val_mem_degenerate_relabel_iff (i : Fin n) :
    i.val ∈ (q.relabel s).degenerate ↔ (s i).val ∈ q.degenerate := by
  rw [val_mem_degenerate_iff, val_mem_degenerate_iff, relabel, Mat.relabel_apply]

theorem degenerate_relabel_eq_nil_iff : (q.relabel s).degenerate = [] ↔ q.degenerate = [] := by
  simp only [List.eq_nil_iff_forall_not_mem]
  constructor
  · intro sound k low
    let i : Fin n := ⟨k, lt_of_mem_degenerate low⟩
    refine sound (s.symm i) ((val_mem_degenerate_relabel_iff s q _).mpr ?_)
    rwa [s.apply_symm_apply]
  · intro sound k low
    let i : Fin n := ⟨k, lt_of_mem_degenerate low⟩
    exact sound (s i) ((val_mem_degenerate_relabel_iff s q i).mp low)

end Quadratic

/-- Under diagonal dominance the sum over a row goes to the diagonal entry of that row. -/
theorem Policy.positivePart_relabel (p : Policy) (Q : Mat ℝ n n) :
    p.positivePart (Q.relabel s) = (p.positivePart Q).relabel s := by
  refine Vec.ext_apply fun i => Vec.ext_apply fun j => ?_
  rw [Mat.relabel_apply]
  cases p with
  | simple => simp only [positivePart_simple, Mat.relabel_apply]
  | absValue => simp only [positivePart_absValue, Mat.relabel_apply]
  | diagonalDominance =>
    have row : ∑ k, (max (Q (s i) (s k)) 0 - Q (s i) (s k))
        = ∑ k, (max (Q (s i) k) 0 - Q (s i) k) :=
      Equiv.sum_comp s fun k => max (Q (s i) k) 0 - Q (s i) k
    simp only [positivePart_diagonalDominance, Mat.relabel_apply, row, s.injective.eq_iff]

namespace Split

theorem build_relabel (p : Policy) (q : Quadratic ℝ n) (epsilon : ℝ) :
    build p (q.relabel s) epsilon = (build p q epsilon).relabel s := by
  have posQ : (build p (q.relabel s) epsilon).posQ = (build p q epsilon).posQ.relabel s := by
    refine Vec.ext_apply fun i => Vec.ext_apply fun j => ?_
    rw [Mat.relabel_apply, build_posQ, build_posQ]
    simp only [Quadratic.relabel, p.positivePart_relabel, Mat.relabel_apply, s.injective.eq_iff]
  have posH : (build p (q.relabel s) epsilon).posH = (build p q epsilon).posH.relabel s := by
    refine Vec.ext_apply fun i => ?_
    simp only [Vec.relabel_apply, build_posH, Quadratic.relabel]
  have negQ : (build p (q.relabel s) epsilon).negQ = (build p q epsilon).negQ.relabel s := by
    refine Vec.ext_apply fun i => Vec.ext_apply fun j => ?_
    rw [Mat.relabel_apply, build_negQ, build_negQ, posQ, Mat.relabel_apply]
    simp only [Quadratic.relabel, Mat.relabel_apply]
  have negH : (build p (q.relabel s) epsilon).negH = (build p q epsilon).negH.relabel s := by
    refine Vec.ext_apply fun i => ?_
    rw [Vec.relabel_apply, build_negH, build_negH, posH, Vec.relabel_apply]
    simp only [Quadratic.relabel, Vec.relabel_apply]
  rw [relabel, ← posQ, ← negQ, ← posH, ← negH]

variable (p : Split ℝ n) (x : Vec ℝ n)

theorem growth_relabel (i : Fin n) :
    (p.relabel s).growth (x.relabel s) i = p.growth x (s i) := by
  simp only [growth, relabel, Mat.relabel_row, Vec.dot_relabel, Vec.relabel_apply]

theorem decay_relabel (i : Fin n) : (p.relabel s).decay (x.relabel s) i = p.decay x (s i) := by
  simp only [decay, relabel, Mat.relabel_row, Vec.dot_relabel, Vec.relabel_apply]

/-- All coordinates read the same floored iterate, so that their order does not matter. -/
theorem synchronous_relabel (epsilon : ℝ) (bound : Option (UpperBound ℝ n)) :
    (p.relabel s).synchronous epsilon (bound.map (UpperBound.relabel s)) (x.relabel s)
      = (p.synchronous epsilon bound x).relabel s := by
  refine Vec.ext_apply fun i => ?_
  rw [synchronous_apply, Vec.relabel_apply, synchronous_apply, Vec.floored_relabel]
  simp only [coordinate, growth_relabel, decay_relabel, Vec.relabel_apply, cap_relabel]

end Split

namespace Problem

theorem iteration_relabels (p : Problem ℝ n) {c : Config ℝ}
    (synchronous : c.schedule = .synchronous) :
    (p.iteration c).Relabels s ((p.relabel s).iteration c) where
  next x := by
    simp only [iteration, synchronous, Split.update]
    rw [← Split.synchronous_relabel, ← Split.build_relabel]
    rfl
  value := p.objective.value_relabel s
  residual := p.objective.residual_relabel s

theorem solve_relabel (p : Problem ℝ n) {c : Config ℝ} (synchronous : c.schedule = .synchronous)
    (tracked : Bool) : (p.relabel s).solve c tracked = (p.solve c tracked).relabel s :=
  solve_relabel_of_relabels (p.iteration_relabels s synchronous) tracked

end Problem

namespace Statement

/-- The outcomes of a problem and of the relabelled one. Where the diagonal is degenerate,
each reports its own indices of the same variables. -/
inductive Corresponds (s : Equiv.Perm (Fin n)) :
    Except Fault ((k : Nat) × Solution ℝ k) → Except Fault ((k : Nat) × Solution ℝ k) → Prop where
  | answered (a : Solution ℝ n) : Corresponds s (.ok ⟨n, a⟩) (.ok ⟨n, a.relabel s⟩)
  | degenerate {indices indices' : List Nat}
      (moved : ∀ i : Fin n, i.val ∈ indices' ↔ (s i).val ∈ indices) :
      Corresponds s (.error (.degenerateDiagonal indices)) (.error (.degenerateDiagonal indices'))
  | refused {f : Fault} (other : ∀ indices, f ≠ .degenerateDiagonal indices) :
      Corresponds s (.error f) (.error f)

variable {s} in
theorem Corresponds.eq_ok {a : Solution ℝ n} {r : Except Fault ((k : Nat) × Solution ℝ k)}
    (corresponds : Corresponds s (.ok ⟨n, a⟩) r) : r = .ok ⟨n, a.relabel s⟩ := by
  cases corresponds
  rfl

theorem Corresponds.of_answer? (p : Problem ℝ n) {c : Config ℝ}
    (synchronous : c.schedule = .synchronous) (tracked : Bool) :
    Corresponds s ((p.answer? c tracked).map (Sigma.mk n))
      (((p.relabel s).answer? c tracked).map (Sigma.mk n)) := by
  -- A relabelled run ends where the other one does, and so it has an answer where that has.
  have alike : (p.relabel s).answer? c tracked
      = (p.answer? c tracked).map (Solution.relabel s) := by
    cases counted : c.runnable? tracked with
    | error f =>
      rw [Problem.answer?_error counted, Problem.answer?_error counted]
      rfl
    | ok _ =>
      rw [Problem.answer?_of_runnable counted, Problem.answer?_of_runnable counted,
        p.solve_relabel s synchronous]
      by_cases ended : (p.solve c tracked).verdict = .converged ∨ c.maxSteps.fits = true
      · rw [if_pos ended]
        exact if_pos ended
      · rw [if_neg ended]
        exact if_neg ended
  rw [alike]
  cases answer : p.answer? c tracked with
  | ok a => exact .answered a
  | error f =>
    refine .refused fun indices same => ?_
    rw [same] at answer
    cases Problem.isOfRun_of_answer? answer

/-- Relabelling the variables of a problem relabels its answer and changes nothing else of
it, or both calls are refused with the same kind of fault. -/
theorem relabelled_solve_corresponds {c : Config ℝ} (synchronous : c.schedule = .synchronous)
    (tracked : Bool) (q : Quadratic ℝ n) (start : Option (Vec ℝ n))
    (bound : Option (UpperBound ℝ n)) :
    Corresponds s ((ofVectors q start bound).solve? c tracked)
      ((ofVectors (q.relabel s) (start.map (Vec.relabel s))
        (bound.map (UpperBound.relabel s))).solve? c tracked) := by
  by_cases empty : n = 0
  · rw [solve?_ofVectors_empty _ _ _ empty, solve?_ofVectors_empty _ _ _ empty]
    exact .refused fun indices same => nomatch same
  rw [solve?_ofVectors _ _ _ empty, solve?_ofVectors _ _ _ empty, reading_relabel]
  cases start with
  | none =>
    change Corresponds s (start? q .null >>= _) (start? (q.relabel s) .null >>= _)
    by_cases sound : q.degenerate = []
    · have relabelled := (q.degenerate_relabel_eq_nil_iff s).mpr sound
      rw [start?_open q sound, start?_open (q.relabel s) relabelled, q.guess_relabel]
      exact .of_answer? s ⟨q, q.guess, reading n (bound.map toTensor)⟩ synchronous tracked
    · have relabelled := mt (q.degenerate_relabel_eq_nil_iff s).mp sound
      rw [start?_degenerate q sound, start?_degenerate (q.relabel s) relabelled]
      exact .degenerate (q.val_mem_degenerate_relabel_iff s)
  | some x =>
    change Corresponds s (start? q (.array (.ofVec x)) >>= _)
      (start? (q.relabel s) (.array (.ofVec (x.relabel s))) >>= _)
    rw [start?_ofVec, start?_ofVec]
    exact .of_answer? s ⟨q, x, reading n (bound.map toTensor)⟩ synchronous tracked

end Statement

end Exact

/-- Two unknowns with an asymmetric matrix, of which only the second row has no negative
entry. -/
noncomputable def Quadratic.uneven : Quadratic ℝ 2 where
  Q := #v[#v[1, -1 - 1], #v[0, 1 + 1]]
  h := #v[1 + 1, 1]

open Statement in
/-- With the standard start and a bound for each unknown, exchanging the two unknowns
exchanges the two entries of the answer. -/
theorem Statement.relabelled_solve_corresponds_uneven :
    let s : Equiv.Perm (Fin 2) := Equiv.swap 0 1
    let b : UpperBound ℝ 2 := .each #v[3, 5]
    (Config.standard : Config ℝ).schedule = .synchronous ∧ ∃ a : Solution ℝ 2,
      (ofVectors .uneven none (some b)).solve? .standard true = .ok ⟨2, a⟩ ∧
      (ofVectors (Quadratic.uneven.relabel s) none (some (b.relabel s))).solve? .standard true
        = .ok ⟨2, a.relabel s⟩ := by
  intro s b
  have sound : Quadratic.uneven.degenerate = [] := by
    refine List.eq_nil_iff_forall_not_mem.mpr fun k low => ?_
    let i : Fin 2 := ⟨k, Quadratic.lt_of_mem_degenerate low⟩
    have small := of_decide_eq_true ((Quadratic.uneven.val_mem_degenerate_iff i).mp low)
    have positive : ∀ j, 0 < Quadratic.uneven.Q j j :=
      Fin.forall_fin_two.mpr ⟨one_pos, add_pos one_pos one_pos⟩
    exact absurd (positive i) (not_lt.mpr small)
  let p : Problem ℝ 2 := ⟨.uneven, Quadratic.uneven.guess, reading 2 ((some b).map toTensor)⟩
  have answered : (ofVectors .uneven none (some b)).solve? .standard true
      = .ok ⟨2, p.solve .standard true⟩ :=
    solve?_ofVectors_open _ _ two_ne_zero sound (Config.countable_standard true)
  have synchronous : (Config.standard : Config ℝ).schedule = .synchronous := rfl
  have corresponds := relabelled_solve_corresponds s synchronous true .uneven none (some b)
  rw [answered] at corresponds
  exact ⟨rfl, _, answered, corresponds.eq_ok⟩

end BoxQP
