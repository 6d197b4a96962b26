import BoxQP.Proofs.StoppingControls
import BoxQP.Proofs.TriangularSweep

/-!
# Ways to write a problem

A list of numbers may be written along one axis or as a single column, a bound that is the
same for all coordinates as a single number of any rank or once for each of them, and the
standard start left open. Whatever is written for a problem is read as it, up to the form
of its bound; and of a bound an update sees no more than where it cuts each coordinate. All
ways to write a problem therefore have one answer. No law of the arithmetic is used.
-/

namespace BoxQP

open UpperBound

variable {α : Type} [Arith α] {n : Nat}

/-- A positive number is not found to be at most zero. -/
theorem Arith.le_eq_false_of_pos (ordered : Arith.Ordered α)
    (irreflexive : Arith.lt (0 : α) 0 = false) {d : α} (positive : Arith.lt 0 d = true) :
    Arith.le d 0 = false := by
  refine Bool.eq_false_iff.mpr fun low => ?_
  exact Bool.false_ne_true (irreflexive.symm.trans (ordered 0 d 0 positive low))

/-- A list of limits cuts where it says. Of a single coordinate the only entry is read as a
limit for all, which comes to the same. -/
theorem Tensor.limitAt_of_column? {t : Tensor α} {v : Vec α n} (column : t.column? = some ⟨n, v⟩)
    (i : Fin n) : t.limitAt i = v i := by
  have lists := lists_of_column? column
  obtain ⟨w, read, entries⟩ := lists.exists_column
  obtain rfl : w = v := by
    cases column.symm.trans read
    rfl
  rw [limitAt, entries]
  by_cases single : t.size = 1
  · have full : t.size = n := lists.size_eq
    have first : i.val = 0 := by omega
    rw [if_pos single, first]
  · rw [if_neg single]

namespace Literal

variable {l : Literal α} {t : Tensor α} {v : Vec α n} {u : Fin n → α}

/-- The argument lists the entries of `v`, along one axis or as a single column. -/
def Lists (l : Literal α) (v : Vec α n) : Prop :=
  l.read = .ok (.ofVec v) ∨ l.read = .ok (.columnOf v)

/-- The argument gives each coordinate `i` the limit `u i`: it lists the limits, or it is a
single number, of any rank, that is the limit of every coordinate. -/
def Limits (l : Literal α) (u : Fin n → α) : Prop :=
  l.Lists (Vec.ofFn u) ∨ ∃ t, l.read = .ok t ∧ t.size = 1 ∧ ∀ i, u i = t.entry 0

theorem lists_ofVec (v : Vec α n) : (array (.ofVec v)).Lists v := Or.inl rfl

theorem lists_columnOf (v : Vec α n) : (array (.columnOf v)).Lists v := Or.inr rfl

theorem limits_number (u : α) : (number u).Limits fun _ : Fin n => u :=
  Or.inr ⟨.scalar u, rfl, rfl, fun _ => rfl⟩

theorem limits_of_size_eq_one (single : t.size = 1) :
    (array t).Limits fun _ : Fin n => t.entry 0 :=
  Or.inr ⟨t, rfl, single, fun _ => rfl⟩

theorem limits_replicate (u : α) :
    (array (.ofVec (Vector.replicate n u))).Limits fun _ : Fin n => u := by
  have same : Vector.replicate n u = Vec.ofFn fun _ => u :=
    Vec.ext_apply fun i => by rw [Vec.replicate_apply, Vec.ofFn_apply]
  rw [same]
  exact Or.inl (lists_ofVec _)

section Numbers

/-- The literals of the numbers, one after the other. -/
def numbers (xs : List α) : Literal α := .list (xs.map .number)

omit [Arith α] in
theorem leaves_numbers (xs : List α) : (numbers xs).leaves = xs.map number := by
  rw [numbers, leaves]
  induction xs with
  | nil => rfl
  | cons x xs ih =>
    have first : (number x).leaves = [number x] := rfl
    rw [List.map_cons, leavesOf, ih, first, List.singleton_append]

theorem block?_numbers (xs : List α) : (numbers xs).block? = some ([xs.length], xs) := by
  have blocks : blocks? (xs.map number) = some (xs.map fun x => ([], [x])) := by
    induction xs with
    | nil => rfl
    | cons x xs ih => rw [List.map_cons, blocks?, ih, block?, List.map_cons]
  rw [numbers, block?, blocks, Option.bind_some]
  cases xs with
  | nil => rfl
  | cons x xs => simp [stack?, List.flatMap_map]

omit [Arith α] in
theorem any_leaves_numbers {f : Literal α → Bool} (none_holds : ∀ x, f (number x) = false)
    (xs : List α) : (numbers xs).leaves.any f = false := by
  rw [leaves_numbers, List.any_map]
  exact List.any_eq_false.mpr fun x _ => by simp [none_holds]

omit [Arith α] in
theorem ofFlat?_toList (v : Vec α n) :
    Tensor.ofFlat? [v.toList.length] v.toList = some (.ofVec v) := by
  obtain ⟨⟨xs⟩, rfl⟩ := v
  exact dif_pos (Shape.volume_singleton xs.length).symm

/-- A plain list of numbers is read as the vector of them. -/
theorem lists_numbers (v : Vec α n) : (numbers v.toList).Lists v := by
  have regular : (numbers v.toList).block?.bind (fun b => Tensor.ofFlat? b.1 b.2)
      = some (.ofVec v) := by
    rw [block?_numbers, Option.bind_some, ofFlat?_toList]
  have small : (numbers v.toList).holdsTooLarge = false := by
    rw [holdsTooLarge, any_leaves_numbers (fun _ => rfl), any_leaves_numbers (fun _ => rfl),
      Bool.and_false, Bool.or_false]
  have given : (numbers v.toList).leaves.any isNull = false :=
    any_leaves_numbers (fun _ => rfl) _
  have numeric : (numbers v.toList).leaves.any isText = false :=
    any_leaves_numbers (fun _ => rfl) _
  refine Or.inl ?_
  -- The checks of an argument that is not an array come one after the other.
  change (if (numbers v.toList).leaves.any isNull then _ else
    if (numbers v.toList).leaves.any isText then _ else _) = _
  rw [given, numeric, regular, small]
  rfl

end Numbers

theorem isNull_of_read (read : l.read = .ok t) : l.isNull = false := by
  cases l with
  | null => cases read
  | _ => rfl

theorem Lists.exists_column (lists : l.Lists v) :
    ∃ t, l.read = .ok t ∧ t.column? = some ⟨n, v⟩ := by
  rcases lists with read | read
  · exact ⟨_, read, Tensor.column?_ofVec v⟩
  · exact ⟨_, read, Tensor.column?_columnOf v⟩

theorem Lists.vector?_eq (lists : l.Lists v) (name : String) : l.vector? name = .ok ⟨n, v⟩ := by
  obtain ⟨t, read, column⟩ := lists.exists_column
  simp only [vector?, read, bind, Except.bind, column]

theorem Limits.exists_bounds (limits : l.Limits u) :
    ∃ t : Tensor α, l.read = .ok t ∧ t.Bounds n ∧ ∀ i : Fin n, t.limitAt i = u i := by
  rcases limits with lists | ⟨t, read, single, alike⟩
  · obtain ⟨t, read, column⟩ := lists.exists_column
    refine ⟨t, read, Or.inr (Tensor.lists_of_column? column), fun i => ?_⟩
    rw [Tensor.limitAt_of_column? column, Vec.ofFn_apply]
  · refine ⟨t, read, Or.inl single, fun i => ?_⟩
    rw [Tensor.limitAt, if_pos single, alike]

end Literal

/-- The argument states the bound, whichever form it has; a null states that there is
none. -/
def Literal.StatesBound (l : Literal α) : Option (UpperBound α n) → Prop
  | none => l = .null
  | some b => l.Limits b.limit

namespace Statement

variable {q : Quadratic α n} {x : Vec α n} {l : Literal α}

theorem start?_of_lists (q : Quadratic α n) (lists : l.Lists x) : start? q l = .ok x := by
  obtain ⟨t, read, -⟩ := lists.exists_column
  have given : start? q l = l.vector? "x0" >>= fun v =>
      if same : v.1 = n then .ok (v.2.cast same) else .error (.startLength n v.1) := by
    cases l with
    | null => cases read
    | _ => rfl
  rw [given, lists.vector?_eq]
  exact dif_pos rfl

theorem bound?_of_read {t : Tensor α} (read : l.read = .ok t) :
    bound? n l = (ofProblem? n t).map some := by
  have given : bound? n l = l.read >>= fun t => ofProblem? n t >>= fun b => .ok (some b) := by
    cases l with
    | null => cases read
    | _ => rfl
  rw [given, read]
  rfl

/-- The bound that is read cuts each coordinate where the one that is stated does. -/
theorem bound?_of_stated {b : Option (UpperBound α n)} (stated : l.StatesBound b) :
    ∃ b' : Option (UpperBound α n), bound? n l = .ok b' ∧ cap b' = cap b := by
  cases b with
  | none =>
    obtain rfl : l = .null := stated
    exact ⟨none, rfl, rfl⟩
  | some b =>
    obtain ⟨t, read, bounds, limits⟩ := Literal.Limits.exists_bounds stated
    obtain ⟨b', taken, entries, -⟩ := bounds.ofProblem?
    refine ⟨some b', ?_, ?_⟩
    · rw [bound?_of_read read, taken]
      rfl
    · funext i y
      exact congrArg (Arith.min y) ((Tensor.limit_of_ofEntries? entries i).trans (limits i))

end Statement

section Updates

variable {b b' : Option (UpperBound α n)}

/-- Bounds that cut alike make the same updates, under either schedule. -/
theorem Split.update_eq_of_cap_eq (same : cap b' = cap b) (s : Split α n) (o : Schedule)
    (epsilon : α) : s.update o epsilon b' = s.update o epsilon b := by
  have coordinate_eq (x : Vec α n) (i : Fin n) : s.coordinate b' x i = s.coordinate b x i := by
    rw [coordinate, coordinate, same]
  funext x
  cases o with
  | synchronous =>
    refine Vec.ext_apply fun i => ?_
    change s.synchronous epsilon b' x i = s.synchronous epsilon b x i
    rw [synchronous_apply, synchronous_apply, coordinate_eq]
  | gaussSeidel =>
    -- One sweep solves the equations of the other.
    let c := x.floored epsilon
    change s.sweepTo b' c n le_rfl = s.sweepTo b c n le_rfl
    refine sweepTo_eq_iff.mpr fun i => ?_
    rw [coordinate_eq]
    exact sweepTo_eq_iff.mp rfl i

theorem Problem.iteration_eq_of_cap_eq (p : Problem α n) (same : cap b = cap p.bound)
    (c : Config α) : ({ p with bound := b } : Problem α n).iteration c = p.iteration c := by
  rw [iteration, iteration, Split.update_eq_of_cap_eq same]

/-- An array that states the bound of a problem and fits its vectors is taken by either
schedule for that bound, whichever of the two ways to combine arrays it goes. -/
theorem Parts.iterate?_of_stated {bound : Option (Tensor α)} {p : Problem α n} (positive : 1 ≤ n)
    (stated : (bound.elim Literal.null Literal.array).StatesBound p.bound)
    (fits : ∀ t ∈ bound, Fits n t) (c : Config α) (k : Nat) :
    (stating (Split.build c.policy p.objective c.epsilon)).iterate? c.schedule c.epsilon bound
      p.start k = .ok ((p.iteration c).iterate p.start k) := by
  obtain ⟨b, read, same⟩ := Statement.bound?_of_stated stated
  obtain rfl : reading n bound = b := Except.ok.inj ((Statement.bound?_eq fits).symm.trans read)
  rw [← p.iteration_eq_of_cap_eq same c]
  exact Parts.iterate?_eq { p with bound := reading n bound } c positive fits rfl k

end Updates

namespace Statement

variable {a a' : Statement α} {p : Problem α n}

/-- The arguments write the problem: the matrix as it is, the linear term as a list, and the
bound in any of its forms. The start is a list as well, or it is left open if it is the
standard one and no diagonal entry is found to be at most zero, as no positive one is. -/
structure Writes (a : Statement α) (p : Problem α n) : Prop where
  matrix : a.Q.read = .ok (.ofMat p.objective.Q)
  linear : a.h.Lists p.objective.h
  start : a.start.Lists p.start ∨
    a.start = .null ∧ p.start = p.objective.guess ∧ ∀ i, Arith.le (p.objective.Q i i) 0 = false
  bound : a.bound.StatesBound p.bound

namespace Writes

theorem objective?_eq (positive : 1 ≤ n) (writes : a.Writes p) :
    a.objective? = .ok ⟨n, p.objective⟩ := by
  obtain ⟨t, read, -⟩ := writes.linear.exists_column
  have nonempty : ¬ n = 0 := Nat.one_le_iff_ne_zero.mp positive
  rw [objective?, Literal.isNull_of_read writes.matrix, Literal.isNull_of_read read]
  refine (if_neg Bool.false_ne_true).trans ?_
  rw [writes.matrix, writes.linear.vector?_eq]
  refine (if_neg nonempty).trans ?_
  rw [Tensor.matrixOf?_ofMat]

theorem start?_eq (writes : a.Writes p) : start? p.objective a.start = .ok p.start := by
  rcases writes.start with lists | ⟨left_open, standard, sound⟩
  · exact start?_of_lists p.objective lists
  · have nothing_low : p.objective.degenerate = [] := by
      refine List.eq_nil_iff_forall_not_mem.mpr fun k low => ?_
      let i : Fin n := ⟨k, Quadratic.lt_of_mem_degenerate low⟩
      have found := (p.objective.val_mem_degenerate_iff i).mp low
      exact Bool.false_ne_true ((sound i).symm.trans found)
    rw [left_open, start?_open p.objective nothing_low, standard]

theorem exists_problem? (positive : 1 ≤ n) (writes : a.Writes p) :
    ∃ b, a.problem? = .ok ⟨n, { p with bound := b }⟩ ∧ cap b = cap p.bound := by
  obtain ⟨b, read, same⟩ := bound?_of_stated writes.bound
  refine ⟨b, ?_, same⟩
  rw [problem?, writes.objective?_eq positive]
  change (start? p.objective a.start >>= _) = _
  rw [writes.start?_eq]
  change (bound? n a.bound >>= _) = _
  rw [read]
  rfl

/-- However a problem is written, it is the one that is solved. -/
theorem solve?_eq (positive : 1 ≤ n) (writes : a.Writes p) (c : Config α) (tracked : Bool) :
    a.solve? c tracked = (p.answer? c tracked).map (Sigma.mk n) := by
  obtain ⟨b, read, same⟩ := writes.exists_problem? positive
  rw [solve?_eq_map read, Problem.answer?, Problem.answer?,
    Problem.solve_congr (p.iteration_eq_of_cap_eq same c) rfl rfl rfl]

end Writes

end Statement

/-- Two ways to write a problem have the same answer under every configuration, with or
without a history: the solution of the problem, if the counts and the threshold are within
the range of the step counter. Either schedule goes through the iterates of the problem on
every array that states its bound and fits its vectors. -/
theorem spellings_solved_alike (positive : 1 ≤ n) {p : Problem α n} {a a' : Statement α}
    (writes : a.Writes p) (writes' : a'.Writes p) (c : Config α) (tracked : Bool) :
    a'.solve? c tracked = a.solve? c tracked ∧
    (c.Countable tracked → a.solve? c tracked = .ok ⟨n, p.solve c tracked⟩) ∧
    ∀ bound : Option (Tensor α),
      (bound.elim Literal.null Literal.array).StatesBound p.bound → (∀ t ∈ bound, Fits n t) →
      ∀ k, (Parts.stating (Split.build c.policy p.objective c.epsilon)).iterate? c.schedule
        c.epsilon bound p.start k = .ok ((p.iteration c).iterate p.start k) := by
  refine ⟨?_, fun countable => ?_, fun bound stated fits k => ?_⟩
  · rw [writes.solve?_eq positive, writes'.solve?_eq positive]
  · rw [writes.solve?_eq positive, Problem.answer?_of_countable countable]
    rfl
  · exact Parts.iterate?_of_stated positive stated fits c k

/-- Two unknowns in doubles that are kept below a half. -/
def Problem.halved : Problem Float 2 :=
  let q : Quadratic Float 2 := { Q := #v[#v[2.0, -1.0], #v[-1.0, 3.0]], h := #v[1.0, 0.5] }
  { objective := q, start := q.guess, bound := some (.uniform 0.5) }

theorem Problem.halved_diagonal_pos (i : Fin 2) : Arith.lt 0 (halved.objective.Q i i) = true := by
  revert i
  decide +kernel

/-- A start left open under a number, columns under a bound for each unknown, and plain
lists under an array of two axes with a single entry. -/
theorem spellings_solved_alike_halved :
    let p := Problem.halved
    let Q : Literal Float := .array (.ofMat p.objective.Q)
    let short : Statement Float :=
      { Q, h := .array (.ofVec p.objective.h), start := .null, bound := .number 0.5 }
    let columns : Statement Float :=
      { Q, h := .array (.columnOf p.objective.h), start := .array (.columnOf p.start),
        bound := .array (.ofVec (Vector.replicate 2 0.5)) }
    let lists : Statement Float :=
      { Q, h := .numbers p.objective.h.toList, start := .numbers p.start.toList,
        bound := .array (.columnOf #v[0.5]) }
    1 ≤ 2 ∧ short.Writes p ∧ columns.Writes p ∧ lists.Writes p ∧
      short.solve? .standard true = .ok ⟨2, p.solve .standard true⟩ ∧
      columns.solve? .standard true = short.solve? .standard true ∧
      lists.solve? .standard true = short.solve? .standard true := by
  intro p Q short columns lists
  have sound (i : Fin 2) : Arith.le (p.objective.Q i i) 0 = false :=
    Arith.le_eq_false_of_pos Double.ordered (by decide +kernel) (Problem.halved_diagonal_pos i)
  have short_writes : short.Writes p :=
    ⟨rfl, Literal.lists_ofVec _, Or.inr ⟨rfl, rfl, sound⟩, Literal.limits_number _⟩
  have columns_write : columns.Writes p :=
    ⟨rfl, Literal.lists_columnOf _, Or.inl (Literal.lists_columnOf _), Literal.limits_replicate _⟩
  have lists_write : lists.Writes p :=
    ⟨rfl, Literal.lists_numbers _, Or.inl (Literal.lists_numbers _),
      Literal.limits_of_size_eq_one rfl⟩
  have countable := Config.countable_standard (α := Float) true
  obtain ⟨columns_alike, solved, -⟩ :=
    spellings_solved_alike one_le_two short_writes columns_write .standard true
  obtain ⟨lists_alike, -⟩ :=
    spellings_solved_alike one_le_two short_writes lists_write .standard true
  exact ⟨one_le_two, short_writes, columns_write, lists_write, solved countable, columns_alike,
    lists_alike⟩

end BoxQP
