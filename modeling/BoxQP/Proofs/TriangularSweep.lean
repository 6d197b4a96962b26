import BoxQP.Proofs.ArrayUpdate
import BoxQP.Proofs.ValidSplit

/-!
# The equations that a sweep solves

A sweep overwrites the vector that it reads. Each coordinate is written once, from the new
values before it and the floored ones from it on, so that the result is the only solution
of a triangular system of equations; no law of the arithmetic is used for this. In exact
arithmetic the new values count for nothing where the matrix has no entry below its
diagonal: such an entry is given to neither part of a split, and a sweep is then a
synchronous update. A sweep over no coordinates is refused, and nothing is stated of it but
that.
-/

namespace BoxQP

open UpperBound

section Splice

variable {α : Type} {n : Nat}

/-- The entries of `y` before place `k` and those of `c` from it on. -/
def Vec.splice (k : Nat) (y c : Vec α n) : Vec α n :=
  Vec.ofFn fun j => if j.val < k then y j else c j

namespace Vec

variable {k : Nat} (y c : Vec α n) {j : Fin n}

theorem splice_of_lt (before : j.val < k) : splice k y c j = y j :=
  (ofFn_apply _ j).trans (if_pos before)

theorem splice_of_le (ahead : k ≤ j.val) : splice k y c j = c j :=
  (ofFn_apply _ j).trans (if_neg (Nat.not_lt.mpr ahead))

@[simp]
theorem splice_zero : splice 0 y c = c := ext_apply fun _ => splice_of_le y c (Nat.zero_le _)

@[simp]
theorem splice_all : splice n y c = y := ext_apply fun j => splice_of_lt y c j.isLt

theorem put_splice (inside : k < n) :
    (splice k y c).put ⟨k, inside⟩ (y ⟨k, inside⟩) = splice (k + 1) y c := by
  refine ext_apply fun j => ?_
  by_cases here : ⟨k, inside⟩ = j
  · subst here
    rw [put_apply_self, splice_of_lt y c (Nat.lt_succ_self k)]
  · rw [put_apply_ne _ _ _ _ here]
    have other : j.val ≠ k := fun same => here (Fin.ext same.symm)
    by_cases before : j.val < k
    · rw [splice_of_lt y c before, splice_of_lt y c (by omega)]
    · rw [splice_of_le y c (by omega), splice_of_le y c (by omega)]

end Vec

end Splice

namespace Split

variable {α : Type} [Arith α] {n : Nat} {s : Split α n} {bound : Option (UpperBound α n)}
  {c y : Vec α n}

/-- On its way a sweep holds its own result up to where it has come. -/
theorem sweepTo_eq_splice (k : Nat) (inside : k ≤ n) :
    s.sweepTo bound c k inside = Vec.splice k (s.sweepTo bound c n le_rfl) c := by
  refine Vec.ext_apply fun i => ?_
  by_cases passed : i.val < k
  · rw [Vec.splice_of_lt _ c passed, s.sweepTo_apply_of_lt bound c k inside i passed,
      s.sweepTo_apply_of_lt bound c n le_rfl i i.isLt]
  · have ahead : k ≤ i.val := Nat.not_lt.mp passed
    rw [Vec.splice_of_le _ c ahead, s.sweepTo_apply_of_le bound c k inside i ahead]

/-- The equations of a sweep have no solution but its result. -/
theorem sweepTo_eq_of_solves (solves : ∀ i, y i = s.coordinate bound (Vec.splice i y c) i)
    (k : Nat) (inside : k ≤ n) : s.sweepTo bound c k inside = Vec.splice k y c := by
  induction k with
  | zero => exact (Vec.splice_zero y c).symm
  | succ k ih =>
    have written : s.coordinate bound (Vec.splice k y c) ⟨k, inside⟩ = y ⟨k, inside⟩ :=
      (solves ⟨k, inside⟩).symm
    rw [sweepTo_succ, ih (Nat.le_of_lt inside), written, Vec.put_splice]

theorem sweepTo_eq_iff :
    s.sweepTo bound c n le_rfl = y ↔ ∀ i, y i = s.coordinate bound (Vec.splice i y c) i := by
  constructor
  · rintro rfl i
    rw [← sweepTo_eq_splice i.val i.isLt.le]
    exact s.sweepTo_apply_of_lt bound c n le_rfl i i.isLt
  · intro solves
    rw [sweepTo_eq_of_solves solves n le_rfl, Vec.splice_all]

end Split

theorem UpperBound.cap_reading {α : Type} [Arith α] {n : Nat} {bound : Option (Tensor α)}
    (fits : ∀ t ∈ bound, Fits n t) (i : Fin n) (r : α) :
    cap (reading n bound) i r = bound.elim r fun t => Arith.min r (t.limitAt i) := by
  cases bound with
  | none => rfl
  | some t =>
    obtain ⟨b, read⟩ := (fits t rfl).exists_reading
    have given : reading n (some t) = some b := read
    rw [given]
    exact congrArg (Arith.min r) (Tensor.limit_of_ofEntries? read i)

/-- The matrix has no entry below its diagonal. -/
def Mat.UpperTriangular {n : Nat} (Q : Mat ℝ n n) : Prop := ∀ i j : Fin n, j < i → Q i j = 0

namespace Split

variable {n : Nat} (p : Policy) {q : Quadratic ℝ n} {ε : ℝ} {bound : Option (UpperBound ℝ n)}

/-- A coordinate of a triangular problem does not read the coordinates before it. -/
theorem coordinate_splice (triangular : q.Q.UpperTriangular) (i : Fin n) (y c : Vec ℝ n) :
    (build p q ε).coordinate bound (Vec.splice i y c) i = (build p q ε).coordinate bound c i := by
  have own : Vec.splice i y c i = c i := Vec.splice_of_le y c le_rfl
  have alike (M : Mat ℝ n n) (sparse : ∀ j, j < i → M i j = 0) :
      ∑ j, M i j * Vec.splice i y c j = ∑ j, M i j * c j := by
    refine Finset.sum_congr rfl fun j _ => ?_
    by_cases before : j < i
    · rw [sparse j before, zero_mul, zero_mul]
    · rw [Vec.splice_of_le y c (not_lt.mp before)]
  have parts (j : Fin n) (before : j < i) :=
    parts_eq_zero (ε := ε) p q before.ne' (triangular i j before)
  have growth_same : (build p q ε).growth (Vec.splice i y c) i = (build p q ε).growth c i := by
    rw [growth_real, growth_real, alike _ fun j before => (parts j before).2]
  have decay_same : (build p q ε).decay (Vec.splice i y c) i = (build p q ε).decay c i := by
    rw [decay_real, decay_real, alike _ fun j before => (parts j before).1]
  rw [coordinate_real, coordinate_real, own, growth_same, decay_same]

theorem sweep_eq_synchronous (triangular : q.Q.UpperTriangular) (floor : ℝ) (x : Vec ℝ n) :
    (build p q ε).sweep floor bound x = (build p q ε).synchronous floor bound x := by
  refine sweepTo_eq_iff.mpr fun i => ?_
  rw [coordinate_splice p triangular, synchronous_apply]

end Split

/-- A sweep over at least one coordinate goes through under every bound of a fitting shape,
and each new coordinate is the cut ratio that is read where the coordinates before it are
new and those from it on are floored. Where the matrix has no entry below its diagonal, any
number of sweeps is the same number of synchronous updates. -/
theorem sweep_solves_triangular_system {n : Nat} (positive : 1 ≤ n) :
    (∀ {α : Type} [Arith α] (s : Split α n) (x : Vec α n) (epsilon : α)
        (bound : Option (Tensor α)), (∀ t ∈ bound, Fits n t) →
      let c := x.floored epsilon
      ∃ y : Vec α n, (Parts.stating s).update? .gaussSeidel epsilon bound x = .ok y ∧
        ∀ i : Fin n,
          let w := Vec.splice i y c
          let r := c i * (Vec.dot (s.negQ i) w + s.posH i) / (Vec.dot (s.posQ i) w + s.negH i)
          y i = bound.elim r fun t => Arith.min r (t.limitAt i)) ∧
    ∀ q : Quadratic ℝ n, q.Q.UpperTriangular →
      ∀ (p : Policy) (ε floor : ℝ) (bound : Option (Tensor ℝ)), (∀ t ∈ bound, Fits n t) →
        ∀ (x : Vec ℝ n) (k : Nat), ∃ z : Vec ℝ n,
          let parts := Parts.stating (Split.build p q ε)
          parts.iterate? .gaussSeidel floor bound x k = .ok z ∧
            parts.iterate? .synchronous floor bound x k = .ok z := by
  constructor
  · intro α _ s x epsilon bound fits c
    let y := s.sweepTo (reading n bound) c n le_rfl
    refine ⟨y, Parts.update?_eq s .gaussSeidel epsilon positive fits x, ?_⟩
    intro i w r
    have solved : y i = s.coordinate (reading n bound) w i := Split.sweepTo_eq_iff.mp rfl i
    have own : w i = c i := Vec.splice_of_le y c le_rfl
    rw [solved, ← cap_reading fits]
    refine congrArg (cap (reading n bound) i) ?_
    rw [own]
    rfl
  · intro q triangular p ε floor bound fits x k
    let s := Split.build p q ε
    have same : s.update .gaussSeidel floor (reading n bound)
        = s.update .synchronous floor (reading n bound) :=
      funext fun z => Split.sweep_eq_synchronous p triangular floor z
    refine ⟨(s.update .synchronous floor (reading n bound))^[k] x, ?_, ?_⟩
    · rw [← same]
      exact Parts.iterate?_eq_iterate s .gaussSeidel floor positive fits x k
    · exact Parts.iterate?_eq_iterate s .synchronous floor positive fits x k

/-- Two unknowns of which only the first one sees the other. -/
noncomputable def Quadratic.oneWay : Quadratic ℝ 2 where
  Q := #v[#v[1 + 1, -(1 + 1)], #v[0, 1 + 1 + 1]]
  h := #v[-1, 1 + 1 + 1]

/-- A bound for each of the two unknowns, and a start below the floor in one of them. -/
theorem sweep_solves_triangular_system_oneWay :
    let bound : Option (Tensor ℝ) := some (.ofVec #v[1, 1 + 1])
    let x : Vec ℝ 2 := #v[-1, 1]
    1 ≤ 2 ∧ (∀ t ∈ bound, Fits 2 t) ∧ Quadratic.oneWay.Q.UpperTriangular ∧
      ∀ p : Policy,
        let s := Split.build p .oneWay (1 / 2)
        (∃ y : Vec ℝ 2, (Parts.stating s).update? .gaussSeidel (1 / 2) bound x = .ok y ∧
          let w := Vec.splice 1 y (x.floored (1 / 2))
          y 1 = min (x.floored (1 / 2) 1 * s.growth w 1 / s.decay w 1)
            ((Tensor.ofVec #v[1, 1 + 1]).limitAt 1)) ∧
        ∀ k, ∃ z : Vec ℝ 2,
          (Parts.stating s).iterate? .gaussSeidel (1 / 2) bound x k = .ok z ∧
            (Parts.stating s).iterate? .synchronous (1 / 2) bound x k = .ok z := by
  intro bound x
  let limits : UpperBound ℝ 2 := .each #v[1, 1 + 1]
  have fits : ∀ t ∈ bound, Fits 2 t := fits_toTensor (b := some limits)
  have triangular : Quadratic.oneWay.Q.UpperTriangular := by
    refine Fin.forall_fin_two.mpr ⟨fun j before => absurd before (Fin.not_lt_zero j), ?_⟩
    exact Fin.forall_fin_two.mpr ⟨fun _ => rfl, fun same => absurd same (lt_irrefl _)⟩
  refine ⟨one_le_two, fits, triangular, ?_⟩
  intro p s
  obtain ⟨sweep, runs⟩ := sweep_solves_triangular_system (n := 2) one_le_two
  obtain ⟨y, swept, solved⟩ := sweep s x (1 / 2) bound fits
  exact ⟨⟨y, swept, solved 1⟩, fun k => runs .oneWay triangular p (1 / 2) (1 / 2) bound fits x k⟩

/-- Over no coordinates a sweep fails, while a synchronous update answers the empty
vector. -/
theorem empty_sweep_refused :
    let parts := Parts.stating (Split.build .simple (⟨#v[], #v[]⟩ : Quadratic ℝ 0) 1)
    (¬ ∃ y : Vec ℝ 0, parts.update? .gaussSeidel 1 none #v[] = .ok y) ∧
      parts.update? .gaussSeidel 1 none (#v[] : Vec ℝ 0) = .error .noEntry ∧
      parts.update? .synchronous 1 none (#v[] : Vec ℝ 0) = .ok #v[] := by
  intro parts
  have refused : parts.update? .gaussSeidel 1 none (#v[] : Vec ℝ 0) = .error .noEntry := rfl
  refine ⟨?_, refused, Parts.synchronous?_empty _ 1 _⟩
  rintro ⟨y, swept⟩
  exact nomatch refused.symm.trans swept

end BoxQP
