import BoxQP.Proofs.Acceptance
import BoxQP.Proofs.Answers

/-!
# Programs in arrays and the stages of their solution

A program over inequalities is judged by what is missing of it and by the shapes of its
arrays: the length of the linear term is the number of unknowns that the other arrays have
to agree with, and the rows of the constraints that of the inequalities. The dual and the
recovery of a point judge alike. What is accepted has a dual that a solve takes as it is;
start and bound are then fitted to the number of inequalities, and the multipliers that a
solve answers fit the program again. Without an inequality there is a dual, but nothing to
solve. No law of the arithmetic is used, and nothing is asked of the numbers.
-/

namespace BoxQP

/-- An argument that cannot be left out is missing. -/
def Fault.isMissing : Fault → Bool
  | .missingProblem | .missingRightSide | .missingMultipliers | .missingInequality => true
  | _ => false

/-- The answer is a refusal of the given kind. -/
def Refused {β : Type} (kind : Fault → Bool) (r : Except Fault β) : Prop :=
  ∃ f, r = .error f ∧ kind f = true

theorem map_eq_error_iff {ε β γ : Type} {f : ε} (g : β → γ) (r : Except ε β) :
    r.map g = .error f ↔ r = .error f := by
  cases r with
  | error _ => simp [Except.map]
  | ok _ => simp [Except.map]

theorem refused_map_iff {β γ : Type} {kind : Fault → Bool} (g : β → γ) (r : Except Fault β) :
    Refused kind (r.map g) ↔ Refused kind r := by
  simp only [Refused, map_eq_error_iff]

variable {α : Type} {n m : Nat}

namespace Inequality

/-- A program as it is written in arrays, with null for those that are missing. -/
def ofArrays (H f A : Option (Tensor α)) : Statement α where
  H := H.elim .null .array
  f := f.elim .null .array
  A := A.elim .null .array

/-- The arrays are the data of a program with `n` unknowns and `m` inequalities, and a list
of one entry for each inequality. -/
structure Fitting (n m : Nat) (H f A r : Tensor α) : Prop where
  linear : f.shape = [n]
  square : H.shape = [n, n]
  rows : A.shape = [m, n]
  entries : r.shape = [m]

/-- The program and the list that arrays of fitting shapes state, entry by entry. -/
structure Reads [Arith α] (H f A r : Tensor α) (p : Inequality α n m) (v : Vec α m) : Prop where
  square : ∀ i j, p.H i j = H.entry (i * n + j)
  linear : ∀ j : Fin n, p.f j = f.entry j
  rows : ∀ i j, p.A i j = A.entry (i * n + j)
  entries : ∀ i : Fin m, v i = r.entry i

end Inequality

variable [Arith α]

theorem Tensor.vector?_eq_some_iff (t : Tensor α) (v : Vec α n) :
    t.vector? = some ⟨n, v⟩ ↔ t.shape = [n] ∧ ∀ i : Fin n, v i = t.entry i := by
  rw [← vectorOf?_eq_some_iff]
  constructor
  · intro read
    unfold vector? at read
    split at read
    · cases read
      exact dif_pos rfl
    · cases read
  · intro read
    obtain ⟨shape, e⟩ := t
    obtain rfl : shape = [n] := ((vectorOf?_eq_some_iff _ v).mp read).1
    rw [vectorOf?, dif_pos rfl] at read
    cases read
    rfl

namespace Inequality

section Readings

variable {H f A r : Tensor α} {p : Inequality α n m} {v : Vec α m}

theorem read?_ofArrays (H f A r : Option (Tensor α)) (missing : Fault) :
    read? (ofArrays H f A) (r.elim .null .array) missing
      = r.elim (.error missing) (ofTensors? H f A) := by
  cases r with
  | none => rfl
  | some r => cases H <;> cases f <;> cases A <;> rfl

/-- Arrays are read as a program with a list exactly where they fit and state them. -/
theorem ofTensors?_eq_ok_iff :
    ofTensors? (some H) (some f) (some A) r = .ok ⟨n, m, p, v⟩ ↔
      Fitting n m H f A r ∧ Reads H f A r p v := by
  constructor
  · intro read
    unfold ofTensors? at read
    dsimp only at read
    split at read
    · cases read
    · rename_i fv linear
      split at read
      · cases read
      · rename_i HM square
        split at read
        · cases read
        · rename_i AM rows
          split at read
          · cases read
          · rename_i rv entries
            cases read
            rw [Tensor.vector?_eq_some_iff] at linear
            rw [Tensor.matrixOf?_eq_some_iff] at square rows
            rw [Tensor.vectorOf?_eq_some_iff] at entries
            exact ⟨⟨linear.1, square.1, rows.1, entries.1⟩,
              ⟨square.2, linear.2, rows.2, entries.2⟩⟩
  · rintro ⟨fitting, reads⟩
    have linear := (f.vector?_eq_some_iff p.f).mpr ⟨fitting.linear, reads.linear⟩
    have square := (H.matrixOf?_eq_some_iff p.H).mpr ⟨fitting.square, reads.square⟩
    have entries := (r.vectorOf?_eq_some_iff v).mpr ⟨fitting.entries, reads.entries⟩
    -- The number of rows is read off the constraints, so their shape is fixed first.
    obtain ⟨shape, e⟩ := A
    obtain rfl : shape = [m, n] := fitting.rows
    have rows := (Tensor.matrixOf?_eq_some_iff ⟨[m, n], e⟩ p.A).mpr ⟨rfl, reads.rows⟩
    simp only [ofTensors?, linear, square, List.headD_cons, rows, entries]

omit [Arith α] in
/-- Arrays that are not read are refused for their shapes. -/
theorem ofTensors?_refused {fault : Fault}
    (refused : ofTensors? (some H) (some f) (some A) r = .error fault) :
    fault.isMismatch = true := by
  unfold ofTensors? at refused
  dsimp only at refused
  split at refused
  · cases refused
    rfl
  · split at refused
    · cases refused
      rfl
    · split at refused
      · cases refused
        rfl
      · split at refused
        · cases refused
          rfl
        · cases refused

theorem Fitting.exists_reads (fitting : Fitting n m H f A r) :
    ∃ (p : Inequality α n m) (v : Vec α m), Reads H f A r p v ∧
      ofTensors? (some H) (some f) (some A) r = .ok ⟨n, m, p, v⟩ := by
  let p : Inequality α n m :=
    { H := Mat.ofFn fun i j => H.entry (i * n + j)
      f := Vec.ofFn fun j => f.entry j
      A := Mat.ofFn fun i j => A.entry (i * n + j) }
  let v : Vec α m := Vec.ofFn fun i => r.entry i
  have reads : Reads H f A r p v :=
    ⟨Mat.ofFn_apply _, Vec.ofFn_apply _, Mat.ofFn_apply _, Vec.ofFn_apply _⟩
  exact ⟨p, v, reads, ofTensors?_eq_ok_iff.mpr ⟨fitting, reads⟩⟩

theorem ofTensors?_mismatched_iff :
    Refused Fault.isMismatch (ofTensors? (some H) (some f) (some A) r) ↔
      ¬ ∃ n m, Fitting n m H f A r := by
  constructor
  · rintro ⟨fault, refused, -⟩ ⟨n, m, fitting⟩
    obtain ⟨p, v, -, read⟩ := fitting.exists_reads
    cases refused.symm.trans read
  · intro unfit
    cases read : ofTensors? (some H) (some f) (some A) r with
    | error fault => exact ⟨fault, rfl, ofTensors?_refused read⟩
    | ok program =>
      obtain ⟨n, m, p, v⟩ := program
      exact absurd ⟨n, m, (ofTensors?_eq_ok_iff.mp read).1⟩ unfit

end Readings

section Stages

variable {H f A r : Option (Tensor α)}

/-- A reading is refused for what is missing exactly where something is. -/
theorem read?_missing_iff {missing : Fault} (kind : missing.isMissing = true) :
    Refused Fault.isMissing (read? (ofArrays H f A) (r.elim .null .array) missing) ↔
      H = none ∨ f = none ∨ A = none ∨ r = none := by
  rw [read?_ofArrays]
  constructor
  · rintro ⟨fault, refused, kind⟩
    by_contra present
    push Not at present
    obtain ⟨H', rfl⟩ := Option.ne_none_iff_exists'.mp present.1
    obtain ⟨f', rfl⟩ := Option.ne_none_iff_exists'.mp present.2.1
    obtain ⟨A', rfl⟩ := Option.ne_none_iff_exists'.mp present.2.2.1
    obtain ⟨r', rfl⟩ := Option.ne_none_iff_exists'.mp present.2.2.2
    have mismatch := ofTensors?_refused refused
    cases fault <;> simp_all [Fault.isMissing, Fault.isMismatch]
  · intro absent
    cases r with
    | none => exact ⟨missing, rfl, kind⟩
    | some r =>
      refine ⟨.missingInequality, ?_, rfl⟩
      rcases absent with rfl | rfl | rfl | absent
      · rfl
      · cases H <;> rfl
      · cases H <;> cases f <;> rfl
      · cases absent

/-- The dual is the program with its right-hand side, read and then rewritten. -/
theorem dual?_eq_map (a : Statement α) (b : Literal α) :
    dual? a b = (read? a b .missingRightSide).map fun s => ⟨s.2.1, s.2.2.1.dual s.2.2.2⟩ :=
  bind_pure_comp _ _

theorem recover?_eq_map (a : Statement α) (lam : Literal α) :
    recover? a lam = (read? a lam .missingMultipliers).map fun s =>
      ⟨s.1, s.2.2.1.recover s.2.2.2⟩ :=
  bind_pure_comp _ _

end Stages

end Inequality

section Calls

/-- The solution of an objective from a start and under a bound as they are written. -/
def Quadratic.solve? (q : Quadratic α n) (start bound : Literal α) (c : Config α)
    (tracked : Bool) : Except Fault (Solution α n) := do
  let x ← Statement.start? q start
  let u ← Statement.bound? n bound
  ({ objective := q, start := x, bound := u } : Problem α n).answer? c tracked

/-- A problem whose objective is read has a solution of as many coordinates. -/
theorem Statement.solve?_eq_map_solve? {a : Statement α} {q : Quadratic α n} {c : Config α}
    {tracked : Bool} (objective : a.objective? = .ok ⟨n, q⟩) :
    a.solve? c tracked = (q.solve? a.start a.bound c tracked).map (Sigma.mk n) := by
  rw [solve?, problem?, objective, Quadratic.solve?]
  change _ = Sigma.mk n <$> _
  simp only [map_bind, bind_assoc]
  rfl

variable [TextForm α]

/-- The configuration that a call with these options goes by. -/
def SolveOptions.configured? (o : SolveOptions α) (c : Config α) :
    Except (CallFault α) (Config α) :=
  match o.unknown with
  | name :: _ => .error (.unknownName name)
  | [] =>
    match o.maxSteps with
    | .null => .ok c
    | v => CallFault.ofConfig (c.replace? [("max_steps", v)])

theorem SolveOptions.solve?_eq_bind (o : SolveOptions α) (c : Config α) (Q h : Literal α) :
    o.solve? c Q h = o.configured? c >>= fun c' =>
      (CallFault.ofInput (({ Q, h, start := o.start, bound := o.bound } : Statement α).solve? c'
        o.tracked)).map fun s => (c', s) := by
  have ran (c' : Config α) (r : Except (CallFault α) ((n : Nat) × Solution α n)) :
      (r >>= fun s => .ok (c', s)) = r.map fun s => (c', s) :=
    bind_pure_comp _ _
  unfold solve? configured?
  cases o.unknown with
  | cons _ _ => rfl
  | nil =>
    simp only [ran]
    cases o.maxSteps with
    | null => rfl
    | _ => rfl

/-- An objective that is written out is solved as it is, if it has a coordinate. -/
theorem SolveOptions.solve?_ofVectors (o : SolveOptions α) (c : Config α) (q : Quadratic α n) :
    o.solve? c (.array (.ofMat q.Q)) (.array (.ofVec q.h)) = o.configured? c >>= fun c' =>
      CallFault.ofInput (if n = 0 then .error .emptyProblem
        else (q.solve? o.start o.bound c' o.tracked).map fun d => (c', ⟨n, d⟩)) := by
  rw [solve?_eq_bind]
  refine congrArg (o.configured? c >>= ·) (funext fun c' => ?_)
  let a : Statement α :=
    { Q := .array (.ofMat q.Q), h := .array (.ofVec q.h), start := o.start, bound := o.bound }
  have objective := Statement.objective?_eq q o.start o.bound
  by_cases empty : n = 0
  · rw [if_pos empty] at objective ⊢
    have refused : a.solve? c' o.tracked = .error .emptyProblem := by
      rw [Statement.solve?, Statement.problem?, objective]
      rfl
    change (CallFault.ofInput (a.solve? c' o.tracked)).map _ = _
    rw [refused]
    rfl
  · rw [if_neg empty] at objective ⊢
    change (CallFault.ofInput (a.solve? c' o.tracked)).map _ = _
    rw [Statement.solve?_eq_map_solve? objective]
    cases q.solve? o.start o.bound c' o.tracked with
    | error _ => rfl
    | ok _ => rfl

omit [TextForm α] in
/-- What becomes of an objective in arrays, with a start and a bound in arrays. -/
theorem Quadratic.solve?_judged (q : Quadratic α n) (positive : 1 ≤ n) (c : Config α)
    (tracked : Bool) (start bound : Option (Tensor α)) :
    Statement.Judged c tracked n (.ofMat q.Q) (.ofVec q.h) start bound
      ((q.solve? (start.elim .null .array) (bound.elim .null .array) c tracked).map
        (Sigma.mk n)) := by
  have sized : Sized n (Tensor.ofMat q.Q) (.ofVec q.h) := ⟨positive, Or.inl rfl, rfl⟩
  have nonempty : ¬ n = 0 := Nat.one_le_iff_ne_zero.mp positive
  let a := Statement.ofArrays (some (Tensor.ofMat q.Q)) (some (.ofVec q.h)) start bound
  have objective : a.objective? = .ok ⟨n, q⟩ :=
    (Statement.objective?_eq q _ _).trans (if_neg nonempty)
  have judged : Statement.Judged c tracked n (.ofMat q.Q) (.ofVec q.h) start bound
      (a.solve? c tracked) := Statement.solve?_judged c tracked sized
  rw [Statement.solve?_eq_map_solve? objective] at judged
  exact judged

/-- The call is refused for a fault of that kind in its input. -/
def CallFault.Refused {β : Type} (kind : Fault → Bool) (r : Except (CallFault α) β) : Prop :=
  ∃ f, r = .error (.input f) ∧ kind f = true

omit [Arith α] [TextForm α] in
theorem CallFault.ofInput_eq_error_iff {β : Type} {f : Fault} (r : Except Fault β) :
    (ofInput r : Except (CallFault α) β) = .error (.input f) ↔ r = .error f := by
  cases r with
  | error _ => simp [ofInput, Except.mapError]
  | ok _ => simp [ofInput, Except.mapError]

omit [Arith α] [TextForm α] in
theorem CallFault.refused_ofInput_iff {β : Type} {kind : Fault → Bool} (r : Except Fault β) :
    CallFault.Refused kind (ofInput r : Except (CallFault α) β) ↔ BoxQP.Refused kind r := by
  simp only [CallFault.Refused, BoxQP.Refused, ofInput_eq_error_iff]

/-- The options of a solve with a start and a bound in arrays. -/
def SolveOptions.ofArrays (start bound : Option (Tensor α)) (maxSteps : Setting α)
    (tracked : Bool) : SolveOptions α where
  start := start.elim .null .array
  bound := bound.elim .null .array
  maxSteps
  tracked
  unknown := []

/-- A start that can be made, a bound of an admitted shape and counts and a threshold within
the range of the step counter are all that it takes to solve an objective in arrays. -/
theorem SolveOptions.exists_solve?_ofVectors {start bound : Option (Tensor α)}
    {maxSteps : Setting α} {tracked : Bool} {c c' : Config α} {q : Quadratic α n}
    (positive : 1 ≤ n)
    (configured : (ofArrays start bound maxSteps tracked).configured? c = .ok c')
    (startable : Startable n (.ofMat q.Q) start) (bounds : ∀ u ∈ bound, u.Bounds n)
    (countable : c'.Countable tracked) :
    ∃ d : Solution α n, (ofArrays start bound maxSteps tracked).solve? c (.array (.ofMat q.Q))
      (.array (.ofVec q.h)) = .ok (c', ⟨n, d⟩) := by
  have nonempty : ¬ n = 0 := Nat.one_le_iff_ne_zero.mp positive
  obtain ⟨p, -, -, answered⟩ :=
    (q.solve?_judged positive c' tracked start bound).of_admitted startable bounds
  rw [Problem.answer?_of_countable countable] at answered
  obtain ⟨d, solved, -⟩ := exists_of_map_eq_ok answered
  refine ⟨d, ?_⟩
  rw [solve?_ofVectors, configured]
  change CallFault.ofInput (if n = 0 then _ else _) = _
  rw [if_neg nonempty]
  change CallFault.ofInput (Except.map _ (q.solve? _ _ c' tracked)) = _
  exact congrArg (fun r => CallFault.ofInput (Except.map _ r)) solved

end Calls

namespace Inequality

variable [TextForm α]

/-- Once the dual is made, a call fails only where its solve does: the multipliers that the
solve answers fit the program. -/
theorem solve?_eq_bind {a : Statement α} {b : Literal α} {p : Inequality α n m} {v : Vec α m}
    (read : read? a b .missingRightSide = .ok ⟨n, m, p, v⟩) (o : SolveOptions α)
    (c : Config α) :
    solve? a b o c = o.configured? c >>= fun c' =>
      CallFault.ofInput (if m = 0 then .error .emptyProblem
        else ((p.dual v).solve? o.start o.bound c' o.tracked).map fun d =>
          (c', { n, z := p.recover d.x, dual := ⟨m, d⟩ })) := by
  rw [solve?, dual?_eq read]
  change (o.solve? c (.array (.ofMat (p.dual v).Q)) (.array (.ofVec (p.dual v).h)) >>= _) = _
  rw [SolveOptions.solve?_ofVectors]
  cases o.configured? c with
  | error _ => rfl
  | ok c' =>
    change (CallFault.ofInput _ >>= _) = CallFault.ofInput _
    by_cases empty : m = 0
    · rw [if_pos empty, if_pos empty]
      rfl
    · rw [if_neg empty, if_neg empty]
      cases (p.dual v).solve? o.start o.bound c' o.tracked with
      | error _ => rfl
      | ok d =>
        -- The multipliers have the length of the right-hand side that was read with `a`.
        change (CallFault.ofInput (recover? a (.array (.ofVec d.x))) >>= _) = _
        rw [recover?_ofVec read]
        rfl

section Solves

variable {a : Statement α} {b : Literal α} {p : Inequality α n m} {v : Vec α m}
  {o : SolveOptions α} {c c' : Config α}
  (read : read? a b .missingRightSide = .ok ⟨n, m, p, v⟩)
include read

theorem solve?_of_no_row (configured : o.configured? c = .ok c') (empty : m = 0) :
    solve? a b o c = .error (.input .emptyProblem) := by
  rw [solve?_eq_bind read, configured]
  exact congrArg CallFault.ofInput (if_pos empty)

theorem solve?_of_configured (configured : o.configured? c = .ok c') (some_row : m ≠ 0) :
    solve? a b o c = CallFault.ofInput
      (((p.dual v).solve? o.start o.bound c' o.tracked).map fun d =>
        (c', { n, z := p.recover d.x, dual := ⟨m, d⟩ })) := by
  rw [solve?_eq_bind read, configured]
  exact congrArg CallFault.ofInput (if_neg some_row)

/-- Whatever a solve of the dual answers, the point is recovered from it. -/
theorem solve?_of_dual_solved {s : (k : Nat) × BoxQP.Solution α k}
    (solved : o.solve? c (.array (.ofMat (p.dual v).Q)) (.array (.ofVec (p.dual v).h))
      = .ok (c', s)) :
    ∃ d : BoxQP.Solution α m, s = ⟨m, d⟩ ∧
      solve? a b o c = .ok (c', { n, z := p.recover d.x, dual := ⟨m, d⟩ }) := by
  rw [SolveOptions.solve?_ofVectors] at solved
  obtain ⟨d, configured, solved⟩ := exists_of_bind_eq_ok solved
  have answered := eq_ok_of_mapError solved
  by_cases empty : m = 0
  · rw [if_pos empty] at answered
    cases answered
  · rw [if_neg empty] at answered
    obtain ⟨d, here, answered⟩ := exists_of_map_eq_ok answered
    cases answered
    refine ⟨d, rfl, ?_⟩
    rw [solve?_of_configured read configured empty, here]
    rfl

variable {start bound : Option (Tensor α)} {maxSteps : Setting α} {tracked : Bool}

/-- The start and the bound of a call are judged by the number of inequalities. -/
theorem mismatched_solve?_iff
    (configured : (SolveOptions.ofArrays start bound maxSteps tracked).configured? c = .ok c')
    (positive : 1 ≤ m) :
    CallFault.Refused Fault.isMismatch
        (solve? a b (SolveOptions.ofArrays start bound maxSteps tracked) c) ↔
      (∃ x ∈ start, ¬ x.Lists m) ∨
        (Startable m (.ofMat (p.dual v).Q) start ∧ ∃ u ∈ bound, ¬ u.Bounds m) := by
  have some_row : m ≠ 0 := Nat.one_le_iff_ne_zero.mp positive
  have judged := (p.dual v).solve?_judged positive c' tracked start bound
  rw [solve?_of_configured read configured some_row, CallFault.refused_ofInput_iff,
    refused_map_iff, ← judged.mismatched_iff]
  exact (refused_map_iff (Sigma.mk m) _).symm

end Solves

/-- The dual of a program in arrays and the recovery of a point from multipliers are refused
for an array that is missing, or else exactly for shapes that do not fit each other; where
they fit, the program is read entry by entry. A call whose options are taken then has the
shapes of its start and of its bound judged by the number `m` of inequalities, and whatever
a solve of the dual answers are `m` multipliers from which the point of `n` unknowns is
recovered. For `m = 0` there is a dual, but the call is refused. -/
theorem stages_agree_on_shapes (H f A b : Option (Tensor α)) :
    let a := ofArrays H f A
    let right := b.elim .null .array
    (Refused Fault.isMissing (dual? a right) ↔ H = none ∨ f = none ∨ A = none ∨ b = none) ∧
    (Refused Fault.isMissing (recover? a right) ↔ H = none ∨ f = none ∨ A = none ∨ b = none) ∧
    ∀ H' ∈ H, ∀ f' ∈ f, ∀ A' ∈ A, ∀ b' ∈ b,
      (Refused Fault.isMismatch (dual? a right) ↔ ¬ ∃ n m, Fitting n m H' f' A' b') ∧
      (Refused Fault.isMismatch (recover? a right) ↔ ¬ ∃ n m, Fitting n m H' f' A' b') ∧
      ∀ n m, Fitting n m H' f' A' b' →
        ∃ (p : Inequality α n m) (v : Vec α m), Reads H' f' A' b' p v ∧
          dual? a right = .ok ⟨m, p.dual v⟩ ∧ recover? a right = .ok ⟨n, p.recover v⟩ ∧
          ∀ (start bound : Option (Tensor α)) (maxSteps : Setting α) (tracked : Bool)
            (c c' : Config α),
            let Q := Tensor.ofMat (p.dual v).Q
            let h := Tensor.ofVec (p.dual v).h
            let o := SolveOptions.ofArrays start bound maxSteps tracked
            o.configured? c = .ok c' →
              (m = 0 → CallFault.Refused Fault.isMismatch (solve? a right o c)) ∧
              (1 ≤ m →
                (BoxQP.Statement.ofArrays (some Q) (some h) start bound).objective?
                  = .ok ⟨m, p.dual v⟩ ∧
                (CallFault.Refused Fault.isMismatch (solve? a right o c) ↔
                  (∃ x ∈ start, ¬ x.Lists m) ∨
                    (Startable m Q start ∧ ∃ u ∈ bound, ¬ u.Bounds m)) ∧
                (∀ c'' s, o.solve? c (.array Q) (.array h) = .ok (c'', s) →
                  ∃ d : BoxQP.Solution α m, s = ⟨m, d⟩ ∧
                    solve? a right o c = .ok (c'', { n, z := p.recover d.x, dual := ⟨m, d⟩ })) ∧
                (Startable m Q start → (∀ u ∈ bound, u.Bounds m) → c'.Countable tracked →
                  ∃ d : BoxQP.Solution α m,
                    o.solve? c (.array Q) (.array h) = .ok (c', ⟨m, d⟩))) := by
  intro a right
  refine ⟨?_, ?_, ?_⟩
  · rw [dual?_eq_map, refused_map_iff]
    exact read?_missing_iff rfl
  · rw [recover?_eq_map, refused_map_iff]
    exact read?_missing_iff rfl
  · rintro H' rfl f' rfl A' rfl b' rfl
    refine ⟨?_, ?_, fun n m fitting => ?_⟩
    · rw [dual?_eq_map, refused_map_iff]
      exact ofTensors?_mismatched_iff
    · rw [recover?_eq_map, refused_map_iff]
      exact ofTensors?_mismatched_iff
    · obtain ⟨p, v, reads, read⟩ := fitting.exists_reads
      have right_side : read? a right .missingRightSide = .ok ⟨n, m, p, v⟩ := read
      have multipliers : read? a right .missingMultipliers = .ok ⟨n, m, p, v⟩ := read
      refine ⟨p, v, reads, dual?_eq right_side, ?_, ?_⟩
      · rw [recover?_eq_map, multipliers]
        rfl
      · intro start bound maxSteps tracked c c' Q h o configured
        refine ⟨fun empty => ?_, fun positive => ⟨?_, ?_, ?_, ?_⟩⟩
        · exact ⟨.emptyProblem, solve?_of_no_row right_side configured empty, rfl⟩
        · exact (BoxQP.Statement.objective?_eq _ _ _).trans (if_neg (by omega))
        · exact mismatched_solve?_iff right_side configured positive
        · exact fun c'' s solved => solve?_of_dual_solved right_side solved
        · exact SolveOptions.exists_solve?_ofVectors positive configured

end Inequality

end BoxQP
