import BoxQP.Proofs.Acceptance
import BoxQP.Proofs.Doubles
import BoxQP.Proofs.Positivity

/-!
# Undefined numbers

In an arithmetic that hands its undefined numbers on, an undefined coordinate stays so under
every update, and an undefined entry of the data, of the start or of the bound reaches a
coordinate in the first one. The residual is then undefined at each later look and compares
as below nothing, so that the run spends its budget. Doubles are such an arithmetic. Where a
defined problem runs into undefined numbers on its way, only the second half is claimed: it
does not converge to them.
-/

namespace BoxQP

variable {α : Type} {n : Nat} {bad : α → Prop}

/-- The numbers that every operation of a run hands on and that compare as below nothing. -/
structure Arith.Absorbs [Arith α] (bad : α → Prop) : Prop where
  add : ∀ a b, bad a ∨ bad b → bad (a + b)
  sub : ∀ a b, bad a ∨ bad b → bad (a - b)
  mul : ∀ a b, bad a ∨ bad b → bad (a * b)
  div : ∀ a b, bad a ∨ bad b → bad (a / b)
  abs : ∀ a, bad a → bad (Arith.abs a)
  max : ∀ a b, bad a ∨ bad b → bad (Arith.max a b)
  min : ∀ a b, bad a ∨ bad b → bad (Arith.min a b)
  lt : ∀ a b, bad a ∨ bad b → Arith.lt a b = false

/-- One bad term spoils a fold by an operation that hands bad operands on. -/
theorem foldl_bad {op : α → α → α} (absorbs : ∀ a b, bad a ∨ bad b → bad (op a b))
    (f : Fin n → α) (a : α) (one : bad a ∨ ∃ i, bad (f i)) :
    bad (Fin.foldl n (fun acc i => op acc (f i)) a) := by
  induction n with
  | zero =>
    rw [Fin.foldl_zero]
    exact one.resolve_right fun ⟨i, _⟩ => i.elim0
  | succ n ih =>
    rw [Fin.foldl_succ_last]
    apply absorbs
    rcases one with first | ⟨i, term⟩
    · exact Or.inl (ih _ (Or.inl first))
    · cases i using Fin.lastCases with
      | last => exact Or.inr term
      | cast i => exact Or.inl (ih _ (Or.inr ⟨i, term⟩))

variable [Arith α]

namespace Arith.Absorbs

variable (absorbs : Arith.Absorbs bad)
include absorbs

theorem sum (f : Fin n → α) {i : Fin n} (term : bad (f i)) : bad (BoxQP.sum f) := by
  match n, f, i with
  | 1, f, i =>
    obtain rfl : i = ⟨0, Nat.one_pos⟩ := Subsingleton.elim i _
    exact term
  | _ + 2, f, i =>
    rw [sum_add_two]
    exact foldl_bad absorbs.add f 0 (Or.inr ⟨i, term⟩)

theorem dot {u v : Vec α n} {i : Fin n} (term : bad (u i) ∨ bad (v i)) : bad (Vec.dot u v) :=
  absorbs.sum _ (absorbs.mul _ _ term)

theorem largest {v : Vec α n} {i : Fin n} (entry : bad (v i)) : bad v.largest := by
  cases n with
  | zero => exact i.elim0
  | succ n =>
    refine foldl_bad absorbs.max (fun j : Fin n => v j.succ) v.first ?_
    cases i using Fin.cases with
    | zero => exact Or.inl entry
    | succ i => exact Or.inr ⟨i, entry⟩

theorem residual (q : Quadratic α n) {x : Vec α n} {i : Fin n} (entry : bad (x i)) :
    bad (q.residual x) := by
  refine absorbs.largest (i := i) ?_
  rw [q.complementarity_apply]
  exact absorbs.mul _ _ (Or.inl entry)

theorem floored {x : Vec α n} {i : Fin n} (ε : α) (entry : bad (x i)) : bad (x.floored ε i) := by
  rw [Split.floored_apply]
  exact absorbs.max _ _ (Or.inl entry)

theorem cap {bound : Option (UpperBound α n)} {i : Fin n} {y : α}
    (one : bad y ∨ ∃ b ∈ bound, bad (b.limit i)) : bad (UpperBound.cap bound i y) := by
  cases bound with
  | none => exact one.resolve_right fun ⟨_, given, _⟩ => nomatch given
  | some b =>
    refine absorbs.min _ _ (one.imp_right ?_)
    rintro ⟨_, ⟨⟩, limit⟩
    exact limit

/-- An entry of a row of the matrix spoils the growth of its coordinate at every point. -/
theorem growth_of_matrix (p : Policy) (q : Quadratic α n) (ε : α) (w : Vec α n) {i j : Fin n}
    (entry : bad (q.Q i j)) : bad ((Split.build p q ε).growth w i) := by
  have part : bad ((Split.build p q ε).negQ i j) := by
    rw [Split.build_negQ]
    exact absorbs.sub _ _ (Or.inr entry)
  exact absorbs.add _ _ (Or.inl (absorbs.dot (Or.inl part)))

theorem growth_of_linear (p : Policy) (q : Quadratic α n) (ε : α) (w : Vec α n) {i : Fin n}
    (entry : bad (q.h i)) : bad ((Split.build p q ε).growth w i) := by
  have part : bad ((Split.build p q ε).posH i) := by
    rw [Split.build_posH]
    exact absorbs.mul _ _ (Or.inl (absorbs.max _ _ (Or.inl entry)))
  exact absorbs.add _ _ (Or.inr part)

/-- What an update multiplies or cuts a coordinate by spoils its new value. -/
theorem coordinate (s : Split α n) {bound : Option (UpperBound α n)} {w : Vec α n} {i : Fin n}
    (one : bad (w i) ∨ bad (s.growth w i) ∨ ∃ b ∈ bound, bad (b.limit i)) :
    bad (s.coordinate bound w i) := by
  refine absorbs.cap ((or_assoc.mpr one).imp_left fun factor => ?_)
  exact absorbs.div _ _ (Or.inl (absorbs.mul _ _ factor))

end Arith.Absorbs

/-- The schedule reads a coordinate from the floored iterate, before it is updated itself. -/
theorem Split.readAt_self (s : Split α n) (o : Schedule) (ε : α)
    (bound : Option (UpperBound α n)) (x : Vec α n) (i : Fin n) :
    s.readAt o ε bound x i i = x.floored ε i := by
  cases o with
  | synchronous => rfl
  | gaussSeidel => exact s.sweepTo_apply_of_le bound _ i.val _ i le_rfl

namespace Problem

/-- Something that the update of coordinate `i` reads at `x` is bad. -/
def Spoilt (bad : α → Prop) (p : Problem α n) (x : Vec α n) (i : Fin n) : Prop :=
  bad (x i) ∨ (∃ j, bad (p.objective.Q i j)) ∨ bad (p.objective.h i) ∨
    ∃ b ∈ p.bound, bad (b.limit i)

variable {p : Problem α n} {c : Config α} {i : Fin n} (absorbs : Arith.Absorbs bad)
include absorbs

/-- What spoils a coordinate makes its new value bad, whatever the policy and the order. -/
theorem Spoilt.next {x : Vec α n} (spoilt : p.Spoilt bad x i) :
    bad ((p.iteration c).next x i) := by
  let s := Split.build c.policy p.objective c.epsilon
  change bad (s.update c.schedule c.epsilon p.bound x i)
  rw [Split.update_apply]
  apply absorbs.coordinate
  rcases spoilt with entry | ⟨j, entry⟩ | entry | limit
  · left
    rw [Split.readAt_self]
    exact absorbs.floored _ entry
  · exact Or.inr (Or.inl (absorbs.growth_of_matrix c.policy p.objective c.epsilon _ entry))
  · exact Or.inr (Or.inl (absorbs.growth_of_linear c.policy p.objective c.epsilon _ entry))
  · exact Or.inr (Or.inr limit)

theorem Spoilt.iterate (spoilt : p.Spoilt bad p.start i) (k : Nat) :
    bad ((p.iteration c).iterate p.start (k + 1) i) := by
  induction k with
  | zero => exact spoilt.next absorbs
  | succ k ih => exact Spoilt.next absorbs (Or.inl ih)

/-- A look that passes has seen no bad coordinate. -/
theorem not_bad_of_mem_passing {k : Nat} (passes : k ∈ p.passing c) :
    ¬ bad ((p.iteration c).iterate p.start k i) := by
  intro entry
  obtain ⟨-, -, -, small⟩ := passes
  rw [absorbs.lt _ _ (Or.inl (absorbs.residual p.objective entry))] at small
  exact Bool.false_ne_true small

theorem Spoilt.passing_eq_empty (spoilt : p.Spoilt bad p.start i) : p.passing c = ∅ := by
  refine Set.eq_empty_iff_forall_notMem.mpr fun k passes => ?_
  obtain ⟨k, rfl⟩ : ∃ j, k = j + 1 := Nat.exists_eq_add_of_le' passes.1
  exact not_bad_of_mem_passing absorbs passes (spoilt.iterate absorbs k)

theorem solve_x_not_bad {tracked : Bool} (converged : (p.solve c tracked).verdict = .converged)
    (i : Fin n) : ¬ bad ((p.solve c tracked).x i) := by
  rw [solve_x_eq_iterate]
  exact not_bad_of_mem_passing absorbs (solve_steps_mem_passing converged)

end Problem

namespace Tensor

/-- Some entry of the array is bad. -/
def Holds (bad : α → Prop) (t : Tensor α) : Prop := ∃ k, bad (t.entries k)

theorem Holds.exists_entry {t : Tensor α} (holds : t.Holds bad) :
    ∃ k < t.size, bad (t.entry k) := by
  obtain ⟨k, entry⟩ := holds
  refine ⟨k.val, k.isLt, ?_⟩
  rw [t.entry_of_lt k.isLt]
  exact entry

theorem Lists.exists_entry {t : Tensor α} (lists : t.Lists n) (holds : t.Holds bad) :
    ∃ i : Fin n, bad (t.entry i) := by
  obtain ⟨k, inside, entry⟩ := holds.exists_entry
  exact ⟨⟨k, lists.size_eq ▸ inside⟩, entry⟩

theorem Holds.exists_place {t : Tensor α} (square : t.shape = [n, n]) (holds : t.Holds bad) :
    ∃ i j : Fin n, bad (t.entry (i * n + j)) := by
  obtain ⟨k, inside, entry⟩ := holds.exists_entry
  rw [size, square] at inside
  refine ⟨⟨k / n, row_lt inside⟩, ⟨k % n, column_lt inside⟩, ?_⟩
  rwa [Nat.div_add_mod' k n]

/-- The place of an array that bounds coordinate `i`. -/
theorem Bounds.exists_entry {t : Tensor α} (positive : 1 ≤ n) (bounds : t.Bounds n)
    (holds : t.Holds bad) : ∃ i : Fin n, bad (t.entry (if t.size = 1 then 0 else i)) := by
  by_cases single : t.size = 1
  · obtain ⟨k, inside, entry⟩ := holds.exists_entry
    obtain rfl : k = 0 := by omega
    exact ⟨⟨0, positive⟩, by rwa [if_pos single]⟩
  · obtain ⟨i, entry⟩ := (bounds.resolve_left single).exists_entry holds
    exact ⟨i, by rwa [if_neg single]⟩

end Tensor

section Arrays

variable {Q h : Tensor α} {start bound : Option (Tensor α)} {p : Problem α n}

/-- A bad entry of any array spoils a coordinate of the problem that the arrays state. -/
theorem Problem.Reads.spoilt (reads : p.Reads Q h start bound) (sized : Sized n Q h)
    (startable : Startable n Q start) (bounds : ∀ u ∈ bound, u.Bounds n)
    (one : Q.Holds bad ∨ h.Holds bad ∨ (∃ x ∈ start, x.Holds bad) ∨ ∃ u ∈ bound, u.Holds bad) :
    ∃ i, p.Spoilt bad p.start i := by
  rcases one with matrix | linear | ⟨x, rfl, given⟩ | ⟨u, rfl, limit⟩
  · obtain ⟨i, j, entry⟩ := matrix.exists_place sized.square
    exact ⟨i, Or.inr (Or.inl ⟨j, reads.matrix i j ▸ entry⟩)⟩
  · obtain ⟨i, entry⟩ := sized.linear.exists_entry linear
    exact ⟨i, Or.inr (Or.inr (Or.inl (reads.linear i ▸ entry)))⟩
  · have lists : x.Lists n := startable
    obtain ⟨i, entry⟩ := lists.exists_entry given
    exact ⟨i, Or.inl (reads.given_start x rfl i ▸ entry)⟩
  · obtain ⟨b, taken, limits⟩ := reads.bounded u rfl
    obtain ⟨i, entry⟩ := (bounds u rfl).exists_entry sized.positive limit
    exact ⟨i, Or.inr (Or.inr (Or.inr ⟨b, taken, limits i ▸ entry⟩))⟩

/-- A problem that is accepted is answered. With a bad entry in its data, its start or its
bound all the steps of the budget are made and the run does not converge; where the answer
is convergence, no entry of the final iterate is bad. -/
theorem Statement.undefined_never_converges (absorbs : Arith.Absorbs bad) (c : Config α)
    (tracked : Bool) (sized : Sized n Q h) (startable : Startable n Q start)
    (bounds : ∀ u ∈ bound, u.Bounds n) (countable : c.Countable tracked) :
    ∃ s : Solution α n, (ofArrays (some Q) (some h) start bound).solve? c tracked = .ok ⟨n, s⟩ ∧
      (Q.Holds bad ∨ h.Holds bad ∨ (∃ x ∈ start, x.Holds bad) ∨ (∃ u ∈ bound, u.Holds bad) →
        s.verdict = .budgetSpent ∧ s.steps = c.maxSteps.number ∧
        ∀ N, c.maxSteps = .whole N → s.steps = N) ∧
      (s.verdict = .converged → ∀ i, ¬ bad (s.x i)) := by
  have judged : Judged c tracked n Q h start bound _ := solve?_judged c tracked sized
  obtain ⟨p, reads, -, answer⟩ := judged.of_admitted startable bounds
  rw [Problem.answer?_of_countable countable] at answer
  refine ⟨p.solve c tracked, answer, fun one => ?_, Problem.solve_x_not_bad absorbs⟩
  obtain ⟨i, spoilt⟩ := reads.spoilt sized startable bounds one
  have none_passes : p.passing c = ∅ := spoilt.passing_eq_empty absorbs
  obtain ⟨steps, verdict⟩ := Problem.solve_of_passing_eq_empty none_passes tracked
  refine ⟨verdict, steps, fun N whole => ?_⟩
  rw [steps, whole]
  rfl

end Arrays

/-- Doubles hand their undefined numbers on. -/
theorem Double.absorbs_isNaN : Arith.Absorbs fun x : Float => x.isNaN = true where
  add _ _ := isNaN_add
  sub _ _ := isNaN_sub
  mul _ _ := isNaN_mul
  div _ _ := isNaN_div
  abs _ := isNaN_abs
  max _ _ := isNaN_larger
  min _ _ one := isNaN_neg (isNaN_larger (one.imp isNaN_neg isNaN_neg))
  lt _ _ := lt_eq_false_of_isNaN

open Statement in
/-- An upper bound that is no number, with a history kept of all steps. -/
theorem Statement.undefined_bound_never_converges :
    let bad : Float → Prop := fun x => x.isNaN = true
    let one : Tensor Float := .ofVec #v[1.0]
    let Q : Tensor Float := .ofMat #v[#v[1.0]]
    let u : Tensor Float := .scalar Arith.undefined
    Arith.Absorbs bad ∧ Sized 1 Q one ∧ Startable 1 Q (some one) ∧ u.Bounds 1 ∧
      Config.standard.Countable (α := Float) true ∧ u.Holds bad ∧
      ∃ s : Solution Float 1,
        (ofArrays (some Q) (some one) (some one) (some u)).solve? .standard true = .ok ⟨1, s⟩ ∧
          s.verdict = .budgetSpent ∧ s.steps = 10000 := by
  intro bad one Q u
  have sized : Sized 1 Q one := ⟨le_rfl, Or.inl rfl, rfl⟩
  have startable : Startable 1 Q (some one) := Or.inl rfl
  have bounds : ∀ t ∈ some u, t.Bounds 1 := by
    rintro _ ⟨⟩
    exact Or.inl rfl
  have countable := Config.countable_standard (α := Float) true
  have holds : u.Holds bad := ⟨⟨0, Nat.one_pos⟩, by decide +kernel⟩
  obtain ⟨s, answered, spent, -⟩ := undefined_never_converges Double.absorbs_isNaN .standard true
    sized startable bounds countable
  refine ⟨Double.absorbs_isNaN, sized, startable, bounds u rfl, countable, holds, s, answered, ?_⟩
  obtain ⟨verdict, -, steps⟩ := spent (Or.inr (Or.inr (Or.inr ⟨u, rfl, holds⟩)))
  exact ⟨verdict, steps 10000 rfl⟩

end BoxQP
