import BoxQP.Double
import BoxQP.Proofs.ArrayUpdate
import BoxQP.Proofs.BoundedRun
import Mathlib.Data.List.Sort

/-!
# Which problems are solved

A problem written in arrays is refused for their shapes, or, where it leaves its start
open, for its diagonal, and for no other number in it. Every other problem is read entry by
entry, and on the arrays that it is written out in again each check of the split, of the
updates, of the objective and of the residual is passed, at every iterate. What can still
stop a call is a count of steps or a threshold that the step counter and the residual cannot
be compared with, or a budget that is not a finite number. No law of the arithmetic is used.
-/

namespace BoxQP

open UpperBound

/-- The shapes of the arguments do not go together. -/
def Fault.isMismatch : Fault → Bool
  | .notVector _ _ | .emptyProblem | .problemSizes _ _ | .startLength _ _ | .boundShape _ _ => true
  | .linearTermRank _ | .hessianSizes _ _ | .constraintColumns _ _ | .rightSideLength _ _ => true
  | _ => false

/-- What can be wrong with the run of a problem whose arguments are all taken. -/
def Fault.isOfRun : Fault → Bool
  | .infiniteBudget | .undefinedBudget | .fractionalHistory => true
  | .countTooLarge | .wholeTooLarge | .endless => true
  | _ => false

theorem Fault.isMismatch_of_isOfRun {f : Fault} (kind : f.isOfRun = true) :
    f.isMismatch = false := by
  cases f <;> first | rfl | cases kind

def Mismatched {β : Type} (r : Except Fault β) : Prop := ∃ f, r = .error f ∧ f.isMismatch = true

theorem Mismatched.bind {β γ : Type} {r : Except Fault β} (refused : Mismatched r)
    (f : β → Except Fault γ) : Mismatched (r >>= f) := by
  obtain ⟨fault, rfl, kind⟩ := refused
  exact ⟨fault, rfl, kind⟩

variable {α : Type} {n : Nat}

namespace Tensor

/-- The array is a list of `n` entries, along one axis or as a single column. -/
def Lists (n : Nat) (t : Tensor α) : Prop := t.shape = [n] ∨ t.shape = [n, 1]

/-- The array is a single number of any rank, or a list of `n` entries. -/
def Bounds (n : Nat) (t : Tensor α) : Prop := t.size = 1 ∨ t.Lists n

variable [Arith α]

/-- As a square matrix of `n` rows the array has no positive entry at place `i` of its
diagonal. -/
def DegenerateAt (n : Nat) (t : Tensor α) (i : Nat) : Prop :=
  i < n ∧ Arith.le (t.entry (i * n + i)) 0 = true

theorem Lists.exists_column {t : Tensor α} (lists : t.Lists n) :
    ∃ v : Vec α n, t.column? = some ⟨n, v⟩ ∧ ∀ i : Fin n, v i = t.entry i := by
  obtain ⟨shape, e⟩ := t
  rcases lists with rfl | rfl
  · refine ⟨_, rfl, fun i => ?_⟩
    rw [entry_of_lt _ ((Shape.volume_singleton n).symm ▸ i.isLt)]
    rfl
  · refine ⟨_, rfl, fun i => ?_⟩
    rw [entry_of_lt _ ((Shape.volume_column n).symm ▸ i.isLt)]
    rfl

omit [Arith α] in
theorem lists_of_column? {t : Tensor α} {v : Vec α n} (read : t.column? = some ⟨n, v⟩) :
    t.Lists n := by
  unfold column? at read
  split at read
  · cases read
    exact Or.inl rfl
  · cases read
    exact Or.inr rfl
  · cases read

theorem Lists.vector? {t : Tensor α} (lists : t.Lists n) (name : String) :
    ∃ v : Vec α n, (Literal.array t).vector? name = .ok ⟨n, v⟩ ∧ ∀ i : Fin n, v i = t.entry i := by
  obtain ⟨v, read, entries⟩ := lists.exists_column
  refine ⟨v, ?_, entries⟩
  simp only [Literal.vector?, Literal.read_array, bind, Except.bind, read]

/-- An array that is read as a vector lists its entries; any other one is refused. -/
theorem vector?_cases (t : Tensor α) (name : String) :
    (∃ k v, (Literal.array t).vector? name = .ok ⟨k, v⟩ ∧ t.Lists k) ∨
      (Literal.array t).vector? name = .error (.notVector name t.shape) := by
  simp only [Literal.vector?, Literal.read_array, bind, Except.bind]
  cases column : t.column? with
  | none => exact Or.inr rfl
  | some v => exact Or.inl ⟨v.1, v.2, rfl, lists_of_column? column⟩

omit [Arith α] in
theorem Lists.size_eq {t : Tensor α} (lists : t.Lists n) : t.size = n := by
  rcases lists with shape | shape
  · rw [size, shape, Shape.volume_singleton]
  · rw [size, shape, Shape.volume_column]

/-- A bound of an admitted shape is read by its entries. -/
theorem Bounds.ofProblem? {u : Tensor α} (bounds : u.Bounds n) :
    ∃ b : UpperBound α n, UpperBound.ofProblem? n u = .ok b ∧ ofEntries? n u = some b ∧
      ∀ i : Fin n, b.limit i = u.entry (if u.size = 1 then 0 else i) := by
  have admitted : u.size = 1 ∨ u.shape = [n] ∨ u.shape = [n, 1] := bounds
  obtain ⟨b, read⟩ := exists_ofEntries? (bounds.imp_right Lists.size_eq)
  refine ⟨b, ?_, read, limit_of_ofEntries? read⟩
  rw [UpperBound.ofProblem?, if_pos admitted, read]

end Tensor

section Degenerate

variable [Arith α]

/-- The indices that a degenerate diagonal is reported with are in increasing order. -/
theorem Quadratic.degenerate_pairwise (q : Quadratic α n) : q.degenerate.Pairwise (· < ·) := by
  refine List.pairwise_map.mpr (List.Pairwise.filter _ ?_)
  exact (List.sortedLT_finRange n).pairwise

theorem Quadratic.val_mem_degenerate_iff (q : Quadratic α n) (i : Fin n) :
    i.val ∈ q.degenerate ↔ Arith.le (q.Q i i) 0 = true := by
  rw [degenerate, List.mem_map]
  constructor
  · rintro ⟨j, kept, same⟩
    obtain rfl := Fin.ext same
    exact (List.mem_filter.mp kept).2
  · intro low
    exact ⟨i, List.mem_filter.mpr ⟨List.mem_finRange i, low⟩, rfl⟩

theorem Quadratic.lt_of_mem_degenerate {q : Quadratic α n} {k : Nat} (low : k ∈ q.degenerate) :
    k < n := by
  obtain ⟨i, -, rfl⟩ := List.mem_map.mp low
  exact i.isLt

theorem Quadratic.mem_degenerate_iff (q : Quadratic α n) {t : Tensor α}
    (entries : ∀ i j, q.Q i j = t.entry (i * n + j)) (k : Nat) :
    k ∈ q.degenerate ↔ t.DegenerateAt n k := by
  constructor
  · intro member
    have inside := q.lt_of_mem_degenerate member
    have low := (q.val_mem_degenerate_iff ⟨k, inside⟩).mp member
    exact ⟨inside, entries ⟨k, inside⟩ ⟨k, inside⟩ ▸ low⟩
  · rintro ⟨inside, low⟩
    exact (q.val_mem_degenerate_iff ⟨k, inside⟩).mpr (entries _ _ ▸ low)

end Degenerate

/-- The arrays are a square matrix and a linear term of the same `n` coordinates, with `n`
at least one. -/
structure Sized (n : Nat) (Q h : Tensor α) : Prop where
  positive : 1 ≤ n
  linear : h.Lists n
  square : Q.shape = [n, n]

/-- A start can be made: with the start that is given, or by a positive diagonal. -/
def Startable [Arith α] (n : Nat) (Q : Tensor α) : Option (Tensor α) → Prop
  | none => ∀ i, ¬ Q.DegenerateAt n i
  | some x => x.Lists n

variable [Arith α]

theorem Count.isOfRun_of_shown? {k : Count α} {f : Fault} (refused : k.shown? = .error f) :
    f.isOfRun = true := by
  unfold shown? at refused
  split at refused
  · cases refused
  · split at refused
    · cases refused
    · split at refused <;> cases refused <;> rfl

theorem Config.isOfRun_of_runnable? {c : Config α} {tracked : Bool} {f : Fault}
    (stopped : c.runnable? tracked = .error f) : f.isOfRun = true := by
  rcases runnable?_error_cases stopped with unshown | ⟨rfl, -⟩ | rfl | rfl
  · exact Count.isOfRun_of_shown? unshown
  · rfl
  · rfl
  · rfl

namespace Problem

theorem isOfRun_of_answer? {p : Problem α n} {c : Config α} {tracked : Bool} {f : Fault}
    (unanswered : p.answer? c tracked = .error f) : f.isOfRun = true := by
  cases runs : c.runnable? tracked with
  | error g =>
    rw [answer?_error runs] at unanswered
    cases unanswered
    exact Config.isOfRun_of_runnable? runs
  | ok _ =>
    rw [answer?_of_runnable runs] at unanswered
    split at unanswered <;> cases unanswered
    rfl

/-- With a whole budget a run has no answer only where a number cannot be compared with. -/
theorem answer?_of_whole {p : Problem α n} {c : Config α} {tracked : Bool}
    (whole : c.maxSteps.real = none) (uncountable : ¬ c.Countable tracked) :
    p.answer? c tracked = .error .countTooLarge ∨ p.answer? c tracked = .error .wholeTooLarge := by
  cases runs : c.runnable? tracked with
  | error f =>
    rw [answer?_error runs]
    exact (Config.runnable?_error_of_whole whole runs).imp (congrArg _) (congrArg _)
  | ok _ => exact absurd (Config.countable_of_whole whole runs) uncountable

/-- The problem that arrays of fitting shapes state, entry by entry; an open start is the
standard one. -/
structure Reads (Q h : Tensor α) (start bound : Option (Tensor α)) (p : Problem α n) : Prop where
  matrix : ∀ i j, p.objective.Q i j = Q.entry (i * n + j)
  linear : ∀ i : Fin n, p.objective.h i = h.entry i
  standard_start : start = none → p.start = p.objective.guess
  given_start : ∀ x ∈ start, ∀ i : Fin n, p.start i = x.entry i
  unbounded : bound = none → p.bound = none
  bounded : ∀ u ∈ bound, ∃ b, p.bound = some b ∧
    ∀ i : Fin n, b.limit i = u.entry (if u.size = 1 then 0 else i)

/-- Written out in arrays, a problem passes every check of shapes that a run makes: where
the objective is split, at each update, and where the objective and its residual are taken
of an iterate. -/
structure RunsOnArrays (p : Problem α n) (c : Config α) : Prop where
  splits : Quadratic.ofTensors? (some (.ofMat p.objective.Q)) (some (.ofVec p.objective.h))
    = .ok ⟨n, p.objective⟩
  updates : ∀ k, (Parts.stating (Split.build c.policy p.objective c.epsilon)).iterate? c.schedule
    c.epsilon (p.bound.map toTensor) p.start k = .ok ((p.iteration c).iterate p.start k)
  measures : ∀ x, Quadratic.withPoint? (some (.ofVec x)) (some (.ofMat p.objective.Q))
    (some (.ofVec p.objective.h)) = .ok ⟨n, p.objective, x⟩
  looks : ∀ x, p.objective.residual? x = .ok (p.objective.residual x)

theorem runsOnArrays (p : Problem α n) (c : Config α) (positive : 1 ≤ n)
    (read : reading n (p.bound.map toTensor) = p.bound) : p.RunsOnArrays c where
  splits := p.objective.ofTensors?_eq
  updates k := Parts.iterate?_eq p c positive fits_toTensor read k
  measures x := p.objective.withPoint?_eq x
  looks x := if_neg (by omega)

end Problem

namespace Statement

/-- A problem as it is written in arrays, with null for those that are missing. -/
def ofArrays (Q h start bound : Option (Tensor α)) : Statement α where
  Q := Q.elim .null .array
  h := h.elim .null .array
  start := start.elim .null .array
  bound := bound.elim .null .array

section Readings

variable {Q h : Tensor α} {start bound : Option (Tensor α)}

theorem objective?_of_unlisted {f : Fault} (refused : (Literal.array h).vector? "h" = .error f) :
    (ofArrays (some Q) (some h) start bound).objective? = .error f := by
  rw [objective?]
  refine (if_neg Bool.false_ne_true).trans ?_
  change ((Literal.array h).vector? "h" >>= _) = _
  rw [refused]
  rfl

theorem objective?_of_listed {v : Vec α n} (listed : (Literal.array h).vector? "h" = .ok ⟨n, v⟩) :
    (ofArrays (some Q) (some h) start bound).objective? =
      if n = 0 then .error .emptyProblem
      else match Q.matrixOf? n n with
        | some M => .ok ⟨n, ⟨M, v⟩⟩
        | none => .error (.problemSizes Q.shape n) := by
  rw [objective?]
  refine (if_neg Bool.false_ne_true).trans ?_
  change ((Literal.array h).vector? "h" >>= _) = _
  rw [listed]
  rfl

theorem objective?_mismatched (unsized : ∀ n, ¬ Sized n Q h) :
    Mismatched (ofArrays (some Q) (some h) start bound).objective? := by
  rcases h.vector?_cases "h" with ⟨k, v, listed, lists⟩ | refused
  · rw [objective?_of_listed listed]
    by_cases empty : k = 0
    · exact ⟨.emptyProblem, if_pos empty, rfl⟩
    · have other : Q.matrixOf? k k = none :=
        dif_neg fun square => unsized k ⟨by omega, lists, square⟩
      refine ⟨.problemSizes Q.shape k, (if_neg empty).trans ?_, rfl⟩
      rw [other]
  · exact ⟨_, objective?_of_unlisted refused, rfl⟩

theorem objective?_sized (start bound : Option (Tensor α)) (sized : Sized n Q h) :
    ∃ q : Quadratic α n, (ofArrays (some Q) (some h) start bound).objective? = .ok ⟨n, q⟩ ∧
      (∀ i j, q.Q i j = Q.entry (i * n + j)) ∧ ∀ i : Fin n, q.h i = h.entry i := by
  obtain ⟨v, listed, linear⟩ := sized.linear.vector? "h"
  have nonempty : ¬ n = 0 := Nat.one_le_iff_ne_zero.mp sized.positive
  let M : Mat α n n := Mat.ofFn fun i j => Q.entry (i * n + j)
  have square : Q.matrixOf? n n = some M :=
    (Q.matrixOf?_eq_some_iff _).mpr ⟨sized.square, Mat.ofFn_apply _⟩
  refine ⟨⟨M, v⟩, ?_, Mat.ofFn_apply _, linear⟩
  rw [objective?_of_listed listed]
  refine (if_neg nonempty).trans ?_
  rw [square]

theorem start?_mismatched (q : Quadratic α n) {x : Tensor α} (other : ¬ x.Lists n) :
    Mismatched (start? q (.array x)) := by
  change Mismatched ((Literal.array x).vector? "x0" >>= _)
  rcases x.vector?_cases "x0" with ⟨k, v, listed, lists⟩ | refused
  · rw [listed]
    have short : k ≠ n := by
      rintro rfl
      exact other lists
    exact ⟨.startLength n k, dif_neg short, rfl⟩
  · rw [refused]
    exact ⟨_, rfl, rfl⟩

theorem start?_degenerate (q : Quadratic α n) (unsound : q.degenerate ≠ []) :
    start? q .null = .error (.degenerateDiagonal q.degenerate) := by
  rw [start?]
  split
  · contradiction
  · rfl

theorem start?_open (q : Quadratic α n) (sound : q.degenerate = []) :
    start? q .null = .ok q.guess := by
  rw [start?, sound]

/-- A start that can be made is made, from the entries given or from the objective. -/
theorem start?_startable {q : Quadratic α n} (matrix : ∀ i j, q.Q i j = Q.entry (i * n + j))
    (startable : Startable n Q start) :
    ∃ x, start? q (start.elim .null .array) = .ok x ∧ (start = none → x = q.guess) ∧
      ∀ y ∈ start, ∀ i : Fin n, x i = y.entry i := by
  cases start with
  | none =>
    have sound : q.degenerate = [] := List.eq_nil_iff_forall_not_mem.mpr fun i low =>
      startable i ((q.mem_degenerate_iff matrix i).mp low)
    exact ⟨q.guess, start?_open q sound, fun _ => rfl, fun _ given => nomatch given⟩
  | some y =>
    obtain ⟨x, listed, entries⟩ := startable.vector? "x0"
    refine ⟨x, ?_, fun absent => (nomatch absent), ?_⟩
    · change ((Literal.array y).vector? "x0" >>= _) = _
      rw [listed]
      exact dif_pos rfl
    · rintro _ ⟨⟩
      exact entries

theorem bound?_mismatched {u : Tensor α} (other : ¬ u.Bounds n) :
    Mismatched (bound? n (.array u)) := by
  have refused : UpperBound.ofProblem? n u = .error (.boundShape n u.shape) := if_neg other
  change Mismatched (UpperBound.ofProblem? n u >>= _)
  rw [refused]
  exact ⟨_, rfl, rfl⟩

theorem bound?_bounds (bounds : ∀ u ∈ bound, u.Bounds n) :
    ∃ b : Option (UpperBound α n), bound? n (bound.elim .null .array) = .ok b ∧
      reading n (b.map toTensor) = b ∧ (bound = none → b = none) ∧
      ∀ u ∈ bound, ∃ limits, b = some limits ∧
        ∀ i : Fin n, limits.limit i = u.entry (if u.size = 1 then 0 else i) := by
  cases bound with
  | none => exact ⟨none, rfl, rfl, fun _ => rfl, fun _ given => nomatch given⟩
  | some u =>
    obtain ⟨b, read, entries, limits⟩ := (bounds u rfl).ofProblem?
    refine ⟨some b, ?_, ofEntries?_toTensor entries, fun absent => (nomatch absent), ?_⟩
    · change (UpperBound.ofProblem? n u >>= _) = _
      rw [read]
      rfl
    · rintro _ ⟨⟩
      exact ⟨b, rfl, limits⟩

end Readings

/-- What becomes of a problem whose matrix and linear term fit each other: one refusal at
most, for the diagonal, the start or the bound in this order, or a run. -/
inductive Judged (c : Config α) (tracked : Bool) (n : Nat) (Q h : Tensor α)
    (start bound : Option (Tensor α)) : Except Fault ((n : Nat) × Solution α n) → Prop where
  | degenerate {indices : List Nat} (standard : start = none) (unsound : indices ≠ [])
      (increasing : indices.Pairwise (· < ·)) (low : ∀ i, i ∈ indices ↔ Q.DegenerateAt n i) :
      Judged c tracked n Q h start bound (.error (.degenerateDiagonal indices))
  | misstarted {f : Fault} (kind : f.isMismatch = true) (other : ∃ x ∈ start, ¬ x.Lists n) :
      Judged c tracked n Q h start bound (.error f)
  | misbounded {f : Fault} (kind : f.isMismatch = true) (startable : Startable n Q start)
      (other : ∃ u ∈ bound, ¬ u.Bounds n) : Judged c tracked n Q h start bound (.error f)
  | stopped {f : Fault} {p : Problem α n} (startable : Startable n Q start)
      (bounds : ∀ u ∈ bound, u.Bounds n) (reads : p.Reads Q h start bound)
      (runs : p.RunsOnArrays c) (unanswered : p.answer? c tracked = .error f) :
      Judged c tracked n Q h start bound (.error f)
  | solved {p : Problem α n} {s : Solution α n} (startable : Startable n Q start)
      (bounds : ∀ u ∈ bound, u.Bounds n) (reads : p.Reads Q h start bound)
      (runs : p.RunsOnArrays c) (answered : p.answer? c tracked = .ok s) :
      Judged c tracked n Q h start bound (.ok ⟨n, s⟩)

section Judged

variable {Q h : Tensor α} {start bound : Option (Tensor α)}

theorem solve?_eq_bind {q : Quadratic α n} (c : Config α) (tracked : Bool)
    (objective : (ofArrays (some Q) (some h) start bound).objective? = .ok ⟨n, q⟩) :
    (ofArrays (some Q) (some h) start bound).solve? c tracked =
      start? q (start.elim .null .array) >>= fun x =>
        bound? n (bound.elim .null .array) >>= fun b =>
          (({ objective := q, start := x, bound := b } : Problem α n).answer? c tracked).map
            (Sigma.mk n) := by
  rw [solve?, problem?, objective]
  simp only [bind_assoc]
  rfl

theorem solve?_judged (c : Config α) (tracked : Bool) (sized : Sized n Q h) :
    Judged c tracked n Q h start bound
      ((ofArrays (some Q) (some h) start bound).solve? c tracked) := by
  obtain ⟨q, objective, matrix, linear⟩ := objective?_sized start bound sized
  rw [solve?_eq_bind c tracked objective]
  -- The cases follow the order of the checks: a start comes before the bound, which is not
  -- looked at without one, and the run comes last.
  by_cases startable : Startable n Q start
  · obtain ⟨x, started, standard_start, given_start⟩ := start?_startable matrix startable
    rw [started]
    by_cases bounds : ∀ u ∈ bound, u.Bounds n
    · obtain ⟨b, read, again, unbounded, bounded⟩ := bound?_bounds bounds
      rw [read]
      let p : Problem α n := { objective := q, start := x, bound := b }
      have reads : p.Reads Q h start bound :=
        ⟨matrix, linear, standard_start, given_start, unbounded, bounded⟩
      have runs : p.RunsOnArrays c := p.runsOnArrays c sized.positive again
      change Judged c tracked n Q h start bound ((p.answer? c tracked).map (Sigma.mk n))
      cases answer : p.answer? c tracked with
      | ok s => exact .solved startable bounds reads runs answer
      | error f => exact .stopped startable bounds reads runs answer
    · push Not at bounds
      obtain ⟨u, rfl, other⟩ := bounds
      obtain ⟨f, refused, kind⟩ := bound?_mismatched other
      change Judged c tracked n Q h start (some u) (bound? n (.array u) >>= _)
      rw [refused]
      exact .misbounded kind startable ⟨u, rfl, other⟩
  · cases start with
    | none =>
      have low (i : Nat) := q.mem_degenerate_iff matrix i
      have unsound : q.degenerate ≠ [] := by
        intro sound
        refine startable fun i degenerate => ?_
        exact List.eq_nil_iff_forall_not_mem.mp sound i ((low i).mpr degenerate)
      change Judged c tracked n Q h none bound (start? q .null >>= _)
      rw [start?_degenerate q unsound]
      exact .degenerate rfl unsound q.degenerate_pairwise low
    | some x =>
      obtain ⟨f, refused, kind⟩ := start?_mismatched q startable
      change Judged c tracked n Q h (some x) bound (start? q (.array x) >>= _)
      rw [refused]
      exact .misstarted kind ⟨x, rfl, startable⟩

variable {c : Config α} {tracked : Bool} {r : Except Fault ((n : Nat) × Solution α n)}

theorem Judged.ne_missing (judged : Judged c tracked n Q h start bound r) :
    r ≠ .error .missingProblem := by
  rintro rfl
  cases judged with
  | misstarted kind => cases kind
  | misbounded kind => cases kind
  | stopped _ _ _ _ unanswered => cases Problem.isOfRun_of_answer? unanswered

theorem Judged.eq_degenerate {indices : List Nat}
    (judged : Judged c tracked n Q h start bound (.error (.degenerateDiagonal indices))) :
    start = none ∧ indices ≠ [] ∧ indices.Pairwise (· < ·) ∧
      ∀ i, i ∈ indices ↔ Q.DegenerateAt n i := by
  cases judged with
  | degenerate standard unsound increasing low => exact ⟨standard, unsound, increasing, low⟩
  | misstarted kind => cases kind
  | misbounded kind => cases kind
  | stopped _ _ _ _ unanswered => cases Problem.isOfRun_of_answer? unanswered

/-- Without a start, a degenerate diagonal decides before the bound is looked at. -/
theorem Judged.degenerate_iff (judged : Judged c tracked n Q h start bound r) :
    (∃ indices, r = .error (.degenerateDiagonal indices)) ↔
      start = none ∧ ∃ i, Q.DegenerateAt n i := by
  constructor
  · rintro ⟨indices, rfl⟩
    obtain ⟨standard, unsound, -, low⟩ := judged.eq_degenerate
    obtain ⟨i, member⟩ := List.exists_mem_of_ne_nil indices unsound
    exact ⟨standard, i, (low i).mp member⟩
  · rintro ⟨rfl, i, low⟩
    cases judged with
    | @degenerate indices => exact ⟨indices, rfl⟩
    | misstarted _ other => obtain ⟨_, given, -⟩ := other; cases given
    | misbounded _ startable => exact absurd low (startable i)
    | stopped startable => exact absurd low (startable i)
    | solved startable => exact absurd low (startable i)

theorem Judged.mismatched_iff (judged : Judged c tracked n Q h start bound r) :
    Mismatched r ↔ (∃ x ∈ start, ¬ x.Lists n) ∨
      (Startable n Q start ∧ ∃ u ∈ bound, ¬ u.Bounds n) := by
  constructor
  · rintro ⟨f, rfl, mismatch⟩
    cases judged with
    | degenerate => cases mismatch
    | misstarted _ other => exact Or.inl other
    | misbounded _ startable other => exact Or.inr ⟨startable, other⟩
    | stopped _ _ _ _ unanswered =>
      rw [Fault.isMismatch_of_isOfRun (Problem.isOfRun_of_answer? unanswered)] at mismatch
      cases mismatch
  · rintro (⟨x, rfl, other⟩ | ⟨startable, u, rfl, other⟩)
    · cases judged with
      | degenerate standard => cases standard
      | misstarted kind => exact ⟨_, rfl, kind⟩
      | misbounded kind => exact ⟨_, rfl, kind⟩
      | stopped startable => exact absurd startable other
      | solved startable => exact absurd startable other
    · cases judged with
      | @degenerate indices standard unsound _ low =>
        subst standard
        obtain ⟨i, member⟩ := List.exists_mem_of_ne_nil indices unsound
        exact absurd ((low i).mp member) (startable i)
      | misstarted kind => exact ⟨_, rfl, kind⟩
      | misbounded kind => exact ⟨_, rfl, kind⟩
      | stopped _ bounds => exact absurd (bounds u rfl) other
      | solved _ bounds => exact absurd (bounds u rfl) other

/-- Where nothing is refused for its structure, the run alone decides. -/
theorem Judged.of_admitted (judged : Judged c tracked n Q h start bound r)
    (startable : Startable n Q start) (bounds : ∀ u ∈ bound, u.Bounds n) :
    ∃ p : Problem α n, p.Reads Q h start bound ∧ p.RunsOnArrays c ∧
      r = (p.answer? c tracked).map (Sigma.mk n) := by
  have structural : ¬ Mismatched r := by
    rw [judged.mismatched_iff]
    rintro (⟨x, rfl, other⟩ | ⟨-, u, given, other⟩)
    · exact other startable
    · exact other (bounds u given)
  have sound : ¬ ∃ indices, r = .error (.degenerateDiagonal indices) := by
    rw [judged.degenerate_iff]
    rintro ⟨rfl, i, low⟩
    exact startable i low
  cases judged with
  | degenerate => exact absurd ⟨_, rfl⟩ sound
  | misstarted kind => exact absurd ⟨_, rfl, kind⟩ structural
  | misbounded kind => exact absurd ⟨_, rfl, kind⟩ structural
  | @stopped _ p _ _ reads runs unanswered =>
    exact ⟨p, reads, runs, by rw [unanswered]; rfl⟩
  | @solved p _ _ _ reads runs answered => exact ⟨p, reads, runs, by rw [answered]; rfl⟩

end Judged

section Vectors

/-- A problem of `n` variables as it is written in arrays; the start may be left open. -/
def ofVectors (q : Quadratic α n) (start : Option (Vec α n))
    (bound : Option (UpperBound α n)) : Statement α :=
  ofArrays (some (.ofMat q.Q)) (some (.ofVec q.h)) (start.map .ofVec) (bound.map toTensor)

variable {c : Config α} {tracked : Bool} (q : Quadratic α n) (start : Option (Vec α n))
  (bound : Option (UpperBound α n))

theorem solve?_ofVectors_empty (empty : n = 0) :
    (ofVectors q start bound).solve? c tracked = .error .emptyProblem := by
  have objective : (ofVectors q start bound).objective? = .error .emptyProblem :=
    (objective?_eq q _ _).trans (if_pos empty)
  rw [solve?, problem?, objective]
  rfl

/-- What is written in arrays of the right shapes is read as it is. -/
theorem solve?_ofVectors (nonempty : n ≠ 0) :
    (ofVectors q start bound).solve? c tracked =
      start? q ((start.map Tensor.ofVec).elim .null .array) >>= fun x =>
        ((Problem.mk q x (reading n (bound.map toTensor))).answer? c tracked).map
          (Sigma.mk n) := by
  have objective : (ofVectors q start bound).objective? = .ok ⟨n, q⟩ :=
    (objective?_eq q _ _).trans (if_neg nonempty)
  rw [ofVectors, solve?_eq_bind c tracked objective, bound?_eq fits_toTensor]
  rfl

/-- An open start is the standard one where the diagonal admits it. -/
theorem solve?_ofVectors_open (nonempty : n ≠ 0) (sound : q.degenerate = [])
    (countable : c.Countable tracked) :
    (ofVectors q none bound).solve? c tracked =
      .ok ⟨n, (Problem.mk q q.guess (reading n (bound.map toTensor))).solve c tracked⟩ := by
  rw [solve?_ofVectors q none bound nonempty]
  change (start? q .null >>= _) = _
  rw [start?_open q sound]
  change Except.map _ (Problem.answer? _ c tracked) = _
  rw [Problem.answer?_of_countable countable]
  rfl

theorem start?_ofVec (x : Vec α n) : start? q (.array (Tensor.ofVec x)) = .ok x := dif_pos rfl

end Vectors

end Statement

/-- The message of a degenerate diagonal lists its indices. -/
theorem Fault.message_degenerateDiagonal (indices : List Nat) :
    (degenerateDiagonal indices).message = some
      ("The default initial guess divides by the diagonal of Q, "
        ++ "which is not positive at indices " ++ indexList indices ++ "; supply x0 instead") := by
  simp only [String.append_assoc]
  rfl

theorem Problem.values_size (p : Problem α n) (c : Config α) (tracked : Bool) :
    (p.solve c tracked).values.isSome = tracked ∧
      ∀ values, (p.solve c tracked).values = some values →
        values.size = (p.solve c tracked).steps + 1 := by
  obtain ⟨m, ended, within, -⟩ := p.final_eq_stateAfter c tracked
  obtain ⟨kept, written⟩ := Problem.solve_values ended within
  rw [Problem.solve_steps ended]
  exact ⟨kept, fun values given => (written values given).1⟩

namespace Statement

/-- A problem in arrays is refused exactly for what is missing, for shapes that do not go
together, and for a diagonal that the standard start cannot divide by; the refusal names
the indices of that diagonal. Every other problem is read entry by entry and passes each
check of shapes that its run makes. It is solved by every configuration whose counts the
step counter comes to and whose numbers can be compared with, and with a whole budget a run
is refused for a count or a threshold alone. -/
theorem refused_exactly (c : Config α) (tracked : Bool)
    (Q h start bound : Option (Tensor α)) :
    let r := (ofArrays Q h start bound).solve? c tracked
    (r = .error .missingProblem ↔ Q = none ∨ h = none) ∧
    ∀ A ∈ Q, ∀ b ∈ h,
      ((∀ n, ¬ Sized n A b) → Mismatched r) ∧
      ∀ n, Sized n A b →
        ((∃ indices, r = .error (.degenerateDiagonal indices)) ↔
          start = none ∧ ∃ i, A.DegenerateAt n i) ∧
        (∀ indices, r = .error (.degenerateDiagonal indices) →
          indices.Pairwise (· < ·) ∧ (∀ i, i ∈ indices ↔ A.DegenerateAt n i) ∧
          (Fault.degenerateDiagonal indices).message = some
            ("The default initial guess divides by the diagonal of Q, "
              ++ "which is not positive at indices " ++ indexList indices
              ++ "; supply x0 instead")) ∧
        (Mismatched r ↔ (∃ x ∈ start, ¬ x.Lists n) ∨
          (Startable n A start ∧ ∃ u ∈ bound, ¬ u.Bounds n)) ∧
        (Startable n A start → (∀ u ∈ bound, u.Bounds n) → ∃ p : Problem α n,
          p.Reads A b start bound ∧ p.RunsOnArrays c ∧
          (c.Countable tracked → r = .ok ⟨n, p.solve c tracked⟩ ∧
            (p.solve c tracked).values.isSome = tracked ∧
            ∀ values, (p.solve c tracked).values = some values →
              values.size = (p.solve c tracked).steps + 1) ∧
          (c.maxSteps.real = none → ¬ c.Countable tracked →
            r = .error .countTooLarge ∨ r = .error .wholeTooLarge)) := by
  intro r
  have missing (absent : Q = none ∨ h = none) : r = .error .missingProblem := by
    rcases absent with rfl | rfl
    · rfl
    · cases Q <;> rfl
  have unsized {A b : Tensor α} (hQ : Q = some A) (hh : h = some b) (other : ∀ n, ¬ Sized n A b) :
      Mismatched r := by
    subst hQ hh
    exact ((objective?_mismatched other).bind _).bind _
  have judged {A b : Tensor α} (hQ : Q = some A) (hh : h = some b) {n : Nat}
      (sized : Sized n A b) : Judged c tracked n A b start bound r := by
    subst hQ hh
    exact solve?_judged c tracked sized
  refine ⟨⟨fun refused => ?_, missing⟩, fun A hQ b hh => ⟨unsized hQ hh, fun n sized => ?_⟩⟩
  · by_contra present
    push Not at present
    obtain ⟨A, hQ⟩ := Option.ne_none_iff_exists'.mp present.1
    obtain ⟨b, hh⟩ := Option.ne_none_iff_exists'.mp present.2
    by_cases fitting : ∃ n, Sized n A b
    · obtain ⟨n, sized⟩ := fitting
      exact (judged hQ hh sized).ne_missing refused
    · obtain ⟨f, other, kind⟩ := unsized hQ hh (not_exists.mp fitting)
      cases refused.symm.trans other
      cases kind
  · have outcome := judged hQ hh sized
    refine ⟨outcome.degenerate_iff, ?_, outcome.mismatched_iff, ?_⟩
    · intro indices refused
      rw [refused] at outcome
      obtain ⟨-, -, increasing, low⟩ := outcome.eq_degenerate
      exact ⟨increasing, low, Fault.message_degenerateDiagonal indices⟩
    · intro startable bounds
      obtain ⟨p, reads, runs, answer⟩ := outcome.of_admitted startable bounds
      refine ⟨p, reads, runs, fun countable => ⟨?_, p.values_size c tracked⟩,
        fun whole uncountable => ?_⟩
      · rw [answer, Problem.answer?_of_countable countable]
        rfl
      · rw [answer]
        rcases Problem.answer?_of_whole whole uncountable (p := p) with stopped | stopped <;>
          rw [stopped]
        · exact Or.inl rfl
        · exact Or.inr rfl

end Statement

/-- The standard configuration with a short budget and a period that is one more than the
step counter holds. -/
def Config.overlong : Config Float :=
  { Config.standard with maxSteps := .whole 3, checkEvery := .whole Count.counterBound }

open Statement in
/-- Such a period is in range for a configuration, and yet no problem is solved by it. -/
theorem Statement.overlong_period_refused :
    let one : Tensor Float := .ofVec #v[1.0]
    let Q : Tensor Float := .ofMat #v[#v[1.0]]
    Config.overlong.Valid ∧ Sized 1 Q one ∧ Startable 1 Q (some one) ∧
      (ofArrays (some Q) (some one) (some one) none).solve? .overlong false
        = .error .countTooLarge := by
  refine ⟨⟨by decide +kernel, ?_, by decide +kernel⟩, ⟨le_rfl, Or.inl rfl, rfl⟩, Or.inl rfl, rfl⟩
  intro threshold given
  cases given

end BoxQP
