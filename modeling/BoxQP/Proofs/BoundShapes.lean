import BoxQP.Proofs.CallHistory
import BoxQP.Proofs.TriangularSweep

/-!
# The shapes of a bound

A bound comes to an update as an array. The synchronous schedule combines it with the
iterate, each repeated where the other one asks for it, and the result has to have the
shape of the iterate; the sweep repeats the bound to that shape, and the iterate not at
all. Over at least one coordinate the two ways take the same arrays, a number, a single
entry and one entry for each coordinate, and they cut each coordinate at the same number.
Which fault is answered for another array is not compared, and no law of the arithmetic is
used.
-/

namespace BoxQP

open UpperBound

namespace Shape

theorem axis?_eq_some_left_iff (a b : Nat) : axis? a b = some a ↔ b = 1 ∨ b = a := by
  unfold axis?
  split
  · simp [*]
  · split
    · simp only [Option.some_inj]
      omega
    · split
      · simp [*]
      · simp only [reduceCtorEq, false_iff]
        omega

/-- Matched with a list of `n` entries, only these extents leave it as it is. -/
theorem meet?_vector_iff (n : Nat) (t : List Nat) :
    meet? [n] t = some [n] ↔ t = [] ∨ t = [1] ∨ t = [n] := by
  match t with
  | [] => simp [meet?]
  | [k] =>
    have common := axis?_eq_some_left_iff n k
    cases axis : axis? n k with
    | none => simpa [meet?, axis] using common
    | some j => simpa [meet?, axis] using common
  | k :: l :: rest =>
    cases axis : axis? n k with
    | none => simp [meet?, axis]
    | some j => simp [meet?, axis]

theorem repeatsTo_vector_iff (n : Nat) (t : List Nat) :
    repeatsTo t [n] = true ↔ t = [] ∨ t = [1] ∨ t = [n] := by
  match t with
  | [] => simp [repeatsTo]
  | [k] => simp [repeatsTo, or_comm]
  | k :: l :: rest => simp [repeatsTo]

/-- A list of at most one extent reads the same backwards. -/
theorem reverse_vector_iff (n : Nat) (s : List Nat) :
    (s.reverse = [] ∨ s.reverse = [1] ∨ s.reverse = [n]) ↔ s = [] ∨ s = [1] ∨ s = [n] := by
  simp [List.reverse_eq_iff]

theorem combine?_vector_iff (n : Nat) (s : List Nat) :
    combine? [n] s = some [n] ↔ s = [] ∨ s = [1] ∨ s = [n] := by
  rw [← reverse_vector_iff, ← meet?_vector_iff, combine?, List.reverse_singleton,
    Option.map_eq_some_iff]
  constructor
  · rintro ⟨t, matched, backwards⟩
    rw [matched, List.reverse_eq_iff.mp backwards, List.reverse_singleton]
  · intro matched
    exact ⟨[n], matched, List.reverse_singleton⟩

theorem spreadsTo_vector_iff (n : Nat) (s : List Nat) :
    spreadsTo s [n] = true ↔ s = [] ∨ s = [1] ∨ s = [n] := by
  rw [← reverse_vector_iff, ← repeatsTo_vector_iff, spreadsTo, List.reverse_singleton]

end Shape

variable {α : Type} {n : Nat} {t : Tensor α}

theorem UpperBound.Fits.of_mem_some (fits : Fits n t) : ∀ u ∈ some t, Fits n u := by
  rintro _ ⟨⟩
  exact fits

/-- Either schedule takes exactly the bounds that fit. -/
theorem Schedule.exists_bound?_iff (o : Schedule) (t : Tensor α) :
    (∃ b, o.bound? n t = .ok b) ↔ Fits n t := by
  constructor
  · rintro ⟨b, taken⟩
    cases o with
    | synchronous =>
      change combined? n t = .ok b at taken
      unfold combined? at taken
      split at taken
      · cases taken
      · rename_i s _ combined _
        split at taken
        · rename_i kept
          exact (Shape.combine?_vector_iff n t.shape).mp (kept ▸ combined)
        · cases taken
      · cases taken
    | gaussSeidel =>
      change spread? n t = .ok b at taken
      unfold spread? at taken
      split at taken
      · rename_i spreads
        exact (Shape.spreadsTo_vector_iff n t.shape).mp spreads
      · cases taken
  · intro fits
    obtain ⟨b, read⟩ := fits.exists_reading
    cases o with
    | synchronous => exact ⟨b, fits.combined?_eq read⟩
    | gaussSeidel => exact ⟨b, fits.spread?_eq read⟩

/-- What an update with sizes works with has been taken by its schedule. -/
theorem Split.fits_of_operands? {s : Split α n} {o : Schedule}
    {fitted : Split α n × Option (UpperBound α n)}
    (taken : s.operands? o n (some t) = .ok fitted) : Fits n t := by
  have same : s.resize? n = .ok s := dif_pos rfl
  have fits {b : Option (UpperBound α n)} (here : o.optionalBound? n (some t) = .ok b) :
      Fits n t := by
    obtain ⟨u, read, -⟩ := exists_of_map_eq_ok here
    exact (o.exists_bound?_iff t).mp ⟨u, read⟩
  cases o with
  | synchronous =>
    rw [operands?, same] at taken
    change (Schedule.synchronous.optionalBound? n (some t) >>= _) = _ at taken
    obtain ⟨b, here, -⟩ := exists_of_bind_eq_ok taken
    exact fits here
  | gaussSeidel =>
    rw [operands?] at taken
    obtain ⟨b, here, -⟩ := exists_of_bind_eq_ok taken
    exact fits here

/-- What coordinate `i` is read at: the coordinates `c`, and in a sweep the new ones `y`
before it. -/
def Schedule.view (o : Schedule) (i : Fin n) (y c : Vec α n) : Vec α n :=
  match o with
  | .synchronous => c
  | .gaussSeidel => Vec.splice i y c

theorem Schedule.view_self (o : Schedule) (i : Fin n) (y c : Vec α n) : o.view i y c i = c i := by
  cases o with
  | synchronous => rfl
  | gaussSeidel => exact Vec.splice_of_le y c le_rfl

variable [Arith α]

theorem Tensor.combine?_shape {f : α → α → α} {s u : Tensor α}
    (combined : s.combine? f t = .ok u) : Shape.combine? s.shape t.shape = some u.shape := by
  unfold combine? at combined
  split at combined
  · cases combined
    assumption
  · cases combined

/-- The limits of a bound that fits are its entries, or its only one. -/
theorem UpperBound.Fits.limitAt_eq (fits : Fits n t) (i : Fin n) :
    t.limitAt i = t.entry (if t.shape = [n] then i else 0) := by
  rw [Tensor.limitAt]
  by_cases full : t.shape = [n]
  · have size : t.size = n := by rw [Tensor.size, full, Shape.volume_singleton]
    rw [if_pos full]
    by_cases single : t.size = 1
    · have first : i.val = 0 := by omega
      rw [if_pos single, first]
    · rw [if_neg single]
  · rw [if_neg full, if_pos (fits.size_eq.resolve_right full)]

namespace Split

variable {s : Split α n} {bound : Option (UpperBound α n)} {epsilon : α} {x y : Vec α n}

/-- Under either schedule an iteration is the only solution of its equations. -/
theorem update_eq_iff (o : Schedule) :
    s.update o epsilon bound x = y ↔
      ∀ i, y i = s.coordinate bound (o.view i y (x.floored epsilon)) i := by
  cases o with
  | synchronous =>
    constructor
    · rintro rfl i
      exact s.synchronous_apply epsilon bound x i
    · intro solves
      refine Vec.ext_apply fun i => ?_
      exact (s.synchronous_apply epsilon bound x i).trans (solves i).symm
  | gaussSeidel => exact sweepTo_eq_iff

/-- The value of coordinate `i` before it is cut, where the new values are `y`. -/
def ratioAt (s : Split α n) (o : Schedule) (c y : Vec α n) (i : Fin n) : α :=
  c i * s.growth (o.view i y c) i / s.decay (o.view i y c) i

theorem coordinate_view (o : Schedule) (c : Vec α n) (i : Fin n) :
    s.coordinate bound (o.view i y c) i = cap bound i (s.ratioAt o c y i) := by
  rw [coordinate, o.view_self, ratioAt]

end Split

namespace Parts

variable {s : Split α n} {epsilon : α} {x y : Vec α n}

theorem fits_of_synchronous?
    (updated : (stating s).synchronous? epsilon (some t) x = .ok y) : Fits n t := by
  -- Up to the bound no step fails, and what is combined with it is a vector.
  simp only [synchronous?, stating, gradient?_eq] at updated
  simp only [bind, Except.bind, Tensor.combine?_vectors] at updated
  split at updated
  · cases updated
  · rename_i u combined
    split at updated
    · rename_i v read
      have shape := Tensor.combine?_shape combined
      rw [((Tensor.vectorOf?_eq_some_iff u v).mp read).1] at shape
      exact (Shape.combine?_vector_iff n t.shape).mp shape
    · cases updated

theorem fits_of_sweep? (updated : (stating s).sweep? epsilon (some t) x = .ok y) : Fits n t := by
  obtain ⟨b, taken, -⟩ := exists_of_bind_eq_ok updated
  obtain ⟨u, here, -⟩ := exists_of_map_eq_ok taken
  exact (Schedule.gaussSeidel.exists_bound?_iff t).mp ⟨u, here⟩

/-- An update goes through with the result `y` exactly where the bound fits and `y` solves
the equations that the bound cuts. -/
theorem update?_eq_ok_iff (positive : 1 ≤ n) (o : Schedule) :
    (stating s).update? o epsilon (some t) x = .ok y ↔
      Fits n t ∧
        ∀ i, y i = Arith.min (s.ratioAt o (x.floored epsilon) y i) (t.limitAt i) := by
  have solved (fits : Fits n t) : (stating s).update? o epsilon (some t) x = .ok y ↔
      ∀ i, y i = Arith.min (s.ratioAt o (x.floored epsilon) y i) (t.limitAt i) := by
    have cut (i : Fin n) (r : α) : cap (reading n (some t)) i r = Arith.min r (t.limitAt i) :=
      cap_reading fits.of_mem_some i r
    rw [update?_eq s o epsilon positive fits.of_mem_some, Except.ok.injEq, Split.update_eq_iff]
    simp only [Split.coordinate_view, cut]
  constructor
  · intro updated
    have fits : Fits n t := by
      cases o with
      | synchronous => exact fits_of_synchronous? updated
      | gaussSeidel => exact fits_of_sweep? updated
    exact ⟨fits, (solved fits).mp updated⟩
  · rintro ⟨fits, solves⟩
    exact (solved fits).mpr solves

theorem exists_update?_iff (positive : 1 ≤ n) (o : Schedule) :
    (∃ y, (stating s).update? o epsilon (some t) x = .ok y) ↔ Fits n t := by
  constructor
  · rintro ⟨y, updated⟩
    exact ((update?_eq_ok_iff positive o).mp updated).1
  · intro fits
    exact ⟨_, update?_eq s o epsilon positive fits.of_mem_some x⟩

end Parts

/-- Checked by its sizes or step by step on arrays, an update has the same results. -/
theorem Split.update?_eq_ok_iff (s : Split α n) (o : Schedule) (epsilon : α) (x y : Vec α n)
    (positive : 1 ≤ n) :
    s.update? o epsilon (some t) x = .ok y ↔
      (Parts.stating s).update? o epsilon (some t) x = .ok y := by
  have alike (fits : Fits n t) :
      s.update? o epsilon (some t) x = (Parts.stating s).update? o epsilon (some t) x := by
    rw [Parts.update?_eq s o epsilon positive fits.of_mem_some, update?,
      s.operands?_eq o positive fits.of_mem_some]
    rfl
  constructor
  · intro updated
    obtain ⟨fitted, taken, -⟩ := exists_of_bind_eq_ok updated
    rw [← alike (fits_of_operands? taken)]
    exact updated
  · intro updated
    rw [alike ((Parts.update?_eq_ok_iff positive o).mp updated).1]
    exact updated

omit [Arith α] in
theorem UpperBound.ofProblem?_ok {b : UpperBound α n} (taken : ofProblem? n t = .ok b) :
    ofEntries? n t = some b := by
  unfold ofProblem? at taken
  split at taken
  · split at taken
    · cases taken
      assumption
    · cases taken
  · cases taken

/-- The bound of a problem is read by the entries of the array that its argument is. -/
theorem Statement.exists_entries_of_bound? {l : Literal α} {b : UpperBound α n}
    (taken : bound? n l = .ok (some b)) : ∃ w, l.read = .ok w ∧ ofEntries? n w = some b := by
  have given : (l.read >>= fun w => ofProblem? n w >>= fun b => .ok (some b))
      = .ok (some b) := by
    cases l with
    | null => cases taken
    | _ => exact taken
  obtain ⟨w, read, given⟩ := exists_of_bind_eq_ok given
  obtain ⟨b', here, given⟩ := exists_of_bind_eq_ok given
  cases given
  exact ⟨w, read, ofProblem?_ok here⟩

/-- Over at least one coordinate both schedules take the same arrays for a bound, those of
shape `()`, `(1,)` and `(n,)`, and cut what they have made of coordinate `i` at the same
number `u i`: the number, the single entry or the entry `i`. The bound that is read for a
problem has such a shape as well, cuts where the argument that it was read from says, and
is taken by both. -/
theorem schedules_take_same_bounds (positive : 1 ≤ n) (s : Split α n) (epsilon : α)
    (x : Vec α n) :
    (∀ t : Tensor α,
      (∀ o, (∃ y, (Parts.stating s).update? o epsilon (some t) x = .ok y) ↔
        t.shape = [] ∨ t.shape = [1] ∨ t.shape = [n]) ∧
      (∀ o y, s.update? o epsilon (some t) x = .ok y ↔
        (Parts.stating s).update? o epsilon (some t) x = .ok y) ∧
      ∃ u : Fin n → α, (∀ i, u i = t.entry (if t.shape = [n] then i else 0)) ∧
        ∀ o y, (Parts.stating s).update? o epsilon (some t) x = .ok y →
          ∀ i, y i = Arith.min (s.ratioAt o (x.floored epsilon) y i) (u i)) ∧
    ∀ (l : Literal α) (b : UpperBound α n), Statement.bound? n l = .ok (some b) →
      (b.toTensor.shape = [] ∨ b.toTensor.shape = [1] ∨ b.toTensor.shape = [n]) ∧
      (∃ w, l.read = .ok w ∧ ∀ i : Fin n, b.limit i = w.limitAt i) ∧
      ∀ o, (Parts.stating s).update? o epsilon (some b.toTensor) x
        = .ok (s.update o epsilon (some b) x) := by
  refine ⟨fun t => ⟨?_, ?_, ?_⟩, fun l b taken => ?_⟩
  · exact fun o => Parts.exists_update?_iff positive o
  · exact fun o y => s.update?_eq_ok_iff o epsilon x y positive
  · refine ⟨fun i => t.entry (if t.shape = [n] then i else 0), fun _ => rfl, ?_⟩
    intro o y updated i
    obtain ⟨fits, solves⟩ := (Parts.update?_eq_ok_iff positive o).mp updated
    have limit : t.limitAt i = t.entry (if t.shape = [n] then i else 0) := fits.limitAt_eq i
    rw [solves i, limit]
  · obtain ⟨w, read, entries⟩ := Statement.exists_entries_of_bound? taken
    have fits : ∀ u ∈ some b.toTensor, Fits n u := fits_toTensor (b := some b)
    have again : reading n (some b.toTensor) = some b := ofEntries?_toTensor entries
    refine ⟨fits _ rfl, ⟨w, read, Tensor.limit_of_ofEntries? entries⟩, fun o => ?_⟩
    rw [Parts.update?_eq s o epsilon positive fits, again]

/-- For a single coordinate of doubles either schedule takes a number and a list of one
number, but no single entry along two axes, no empty list and no list of two numbers. -/
theorem schedules_take_same_bounds_single :
    let s := Split.build .simple Quadratic.single 0.5
    let takes := fun (o : Schedule) (t : Tensor Float) =>
      ∃ y, (Parts.stating s).update? o 0.5 (some t) #v[3.0] = .ok y
    1 ≤ 1 ∧ ∀ o, takes o (.scalar 2.0) ∧ takes o (.ofVec #v[2.0]) ∧
      ¬ takes o (.columnOf #v[2.0]) ∧ ¬ takes o (.ofVec #v[]) ∧
      ¬ takes o (.ofVec #v[2.0, 1.0]) := by
  intro s takes
  refine ⟨le_rfl, fun o => ?_⟩
  have taken (t : Tensor Float) : takes o t ↔ t.shape = [] ∨ t.shape = [1] ∨ t.shape = [1] :=
    ((schedules_take_same_bounds le_rfl s 0.5 #v[3.0]).1 t).1 o
  refine ⟨?_, ?_, ?_, ?_, ?_⟩
  · exact (taken _).mpr (Or.inl rfl)
  · exact (taken _).mpr (Or.inr (Or.inl rfl))
  · exact (taken _).not.mpr (by decide)
  · exact (taken _).not.mpr (by decide)
  · exact (taken _).not.mpr (by decide)

end BoxQP
