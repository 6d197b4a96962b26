import BoxQP.Problem

/-!
# Readings of arrays

An objective that is written out in arrays is read as it is. A number, a single entry and
one entry for each coordinate are the shapes of a bound that a problem and both schedules
take alike: all three readings then are the one of the entries alone, so that a bound cuts
every coordinate at the same number wherever it is handed in.
-/

namespace BoxQP

variable {α : Type} {n : Nat} {t : Tensor α}

theorem Quadratic.ofTensors?_eq (q : Quadratic α n) :
    ofTensors? (some (Tensor.ofMat q.Q)) (some (Tensor.ofVec q.h)) = .ok ⟨n, q⟩ := by
  simp only [ofTensors?, Option.bind_some, Tensor.vector?_ofVec, Tensor.matrixOf?_ofMat]

theorem Quadratic.withPoint?_eq (q : Quadratic α n) (x : Vec α n) :
    withPoint? (some (Tensor.ofVec x)) (some (Tensor.ofMat q.Q)) (some (Tensor.ofVec q.h))
      = .ok ⟨n, q, x⟩ := by
  rw [withPoint?, ofTensors?_eq]
  simp [bind, Except.bind, Tensor.vectorOf?_ofVec]

theorem Statement.objective?_eq [Arith α] (q : Quadratic α n) (start bound : Literal α) :
    ({ Q := .array (Tensor.ofMat q.Q), h := .array (Tensor.ofVec q.h), start, bound }
      : Statement α).objective? = if n = 0 then .error .emptyProblem else .ok ⟨n, q⟩ := by
  rw [objective?]
  refine (if_neg Bool.false_ne_true).trans ?_
  change (if n = 0 then _ else _) = _
  rw [Tensor.matrixOf?_ofMat]
  rfl

namespace UpperBound

/-- The array is a number, a single entry, or one entry for each of `n` coordinates. -/
def Fits (n : Nat) (t : Tensor α) : Prop := t.shape = [] ∨ t.shape = [1] ∨ t.shape = [n]

theorem Fits.size_eq (fits : Fits n t) : t.size = 1 ∨ t.shape = [n] := by
  rcases fits with scalar | single | full
  · exact Or.inl (by rw [Tensor.size, scalar, Shape.volume])
  · exact Or.inl (by rw [Tensor.size, single, Shape.volume_singleton])
  · exact Or.inr full

theorem exists_ofEntries? (size : t.size = 1 ∨ t.size = n) : ∃ b, ofEntries? n t = some b := by
  by_cases single : t.size = 1
  · exact ⟨_, dif_pos single⟩
  · exact ⟨_, (dif_neg single).trans (dif_pos (size.resolve_left single))⟩

theorem Fits.exists_reading (fits : Fits n t) : ∃ b, ofEntries? n t = some b :=
  exists_ofEntries? (fits.size_eq.imp_right fun full => by
    rw [Tensor.size, full, Shape.volume_singleton])

variable {b : UpperBound α n}

theorem Fits.ofProblem?_eq (fits : Fits n t) (reading : ofEntries? n t = some b) :
    ofProblem? n t = .ok b := by
  have admitted : t.size = 1 ∨ t.shape = [n] ∨ t.shape = [n, 1] :=
    fits.size_eq.imp_right Or.inl
  rw [ofProblem?, if_pos admitted, reading]

/-- A vector keeps its shape in a combination with such an array. -/
theorem Fits.combine?_eq (fits : Fits n t) : Shape.combine? [n] t.shape = some [n] := by
  rcases fits with shape | shape | shape
  · rw [shape]
    rfl
  · rw [shape]
    by_cases one : n = 1
    · subst one
      rfl
    · simp [Shape.combine?, Shape.meet?, Shape.axis?, one]
  · rw [shape]
    simp [Shape.combine?, Shape.meet?, Shape.axis?]

theorem Fits.combined?_eq (fits : Fits n t) (reading : ofEntries? n t = some b) :
    combined? n t = .ok b := by
  rw [combined?, fits.combine?_eq, reading]
  exact if_pos rfl

theorem Fits.spread?_eq (fits : Fits n t) (reading : ofEntries? n t = some b) :
    spread? n t = .ok b := by
  have spreads : Shape.spreadsTo t.shape [n] = true := by
    rcases fits with shape | shape | shape
    · rw [shape]
      rfl
    · rw [shape]
      simp [Shape.spreadsTo, Shape.repeatsTo]
    · rw [shape]
      simp [Shape.spreadsTo, Shape.repeatsTo]
  rw [spread?, if_pos spreads, reading]

theorem entries_of_combined? (taken : combined? n t = .ok b) : ofEntries? n t = some b := by
  unfold combined? at taken
  split at taken
  · cases taken
  · split at taken
    · cases taken
      assumption
    · cases taken
  · cases taken

theorem entries_of_spread? (taken : spread? n t = .ok b) : ofEntries? n t = some b := by
  unfold spread? at taken
  split at taken
  · split at taken
    · cases taken
      assumption
    · cases taken
  · cases taken

/-- The bound that an array states, by its entries alone. -/
def reading (n : Nat) (bound : Option (Tensor α)) : Option (UpperBound α n) :=
  bound.bind (ofEntries? n)

end UpperBound

open UpperBound

variable {bound : Option (Tensor α)}

/-- Either schedule reads the bound by its entries. -/
theorem Schedule.optionalBound?_eq (o : Schedule) (fits : ∀ t ∈ bound, Fits n t) :
    o.optionalBound? n bound = .ok (reading n bound) := by
  cases bound with
  | none => rfl
  | some t =>
    obtain ⟨b, here⟩ := (fits t rfl).exists_reading
    have taken : o.bound? n t = .ok b := by
      cases o with
      | synchronous => exact (fits t rfl).combined?_eq here
      | gaussSeidel => exact (fits t rfl).spread?_eq here
    rw [optionalBound?, taken, reading, Option.bind_some, here]
    rfl

/-- A schedule that takes a bound of any shape reads its entries. -/
theorem Schedule.optionalBound?_ok {o : Schedule} {b : Option (UpperBound α n)}
    (taken : o.optionalBound? n bound = .ok b) : b = reading n bound := by
  cases bound with
  | none =>
    cases taken
    rfl
  | some t =>
    cases read : o.bound? n t with
    | error _ =>
      rw [optionalBound?, read] at taken
      cases taken
    | ok u =>
      rw [optionalBound?, read] at taken
      cases taken
      have entries : ofEntries? n t = some u := by
        cases o with
        | synchronous => exact entries_of_combined? read
        | gaussSeidel => exact entries_of_spread? read
      rw [reading, Option.bind_some, entries]

/-- A problem reads the bound by its entries. -/
theorem Statement.bound?_eq [Arith α] (fits : ∀ t ∈ bound, Fits n t) :
    Statement.bound? n (bound.elim .null .array) = .ok (reading n bound) := by
  cases bound with
  | none => rfl
  | some t =>
    obtain ⟨b, here⟩ := (fits t rfl).exists_reading
    have taken := (fits t rfl).ofProblem?_eq here
    rw [reading, Option.bind_some, here, Option.elim_some]
    change (ofProblem? n t >>= fun b => .ok (some b)) = _
    rw [taken]
    rfl

end BoxQP
