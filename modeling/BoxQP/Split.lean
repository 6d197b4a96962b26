import BoxQP.Quadratic

/-!
# Splitting the objective

The data of an objective is written as a difference, `Q = posQ - negQ` and `h = posH - negH`. A policy
chooses the positive part of `Q`; a small `epsilon` is then added along its diagonal, and the positive part
of `h` is stretched by `1 + epsilon`, which keeps `posQ x + negH` away from zero.
-/

namespace BoxQP

/-- How the positive part of a matrix is chosen. -/
inductive Policy where
  | simple
  | diagonalDominance
  | absValue
  deriving DecidableEq

namespace Policy

def all : List Policy := [.simple, .diagonalDominance, .absValue]

def name : Policy → String
  | .simple => "simple"
  | .diagonalDominance => "diagonal_dominance"
  | .absValue => "abs_value"

def ofName? (s : String) : Option Policy := all.find? fun p => p.name == s

theorem ofName?_name (p : Policy) : ofName? p.name = some p := by
  cases p <;> decide

end Policy

/-- Positive and negative parts of the data of an objective. -/
structure Split (α : Type) (n : Nat) where
  posQ : Mat α n n
  negQ : Mat α n n
  posH : Vec α n
  negH : Vec α n

variable {α : Type} [Arith α] {n : Nat}

namespace Mat

def nonnegative (M : Mat α n n) : Mat α n n := ofFn fun i j => Arith.max (M i j) 0

/-- The square matrix with `d` on the diagonal and zeros elsewhere. -/
def diagonal (d : Fin n → α) : Mat α n n := ofFn fun i j => if i = j then d i else 0

end Mat

namespace Policy

/-- The positive part of `Q` before regularisation. Under diagonal dominance each diagonal entry also
takes the sum of the negative parts of its row. -/
def positivePart (p : Policy) (Q : Mat α n n) : Mat α n n :=
  match p with
  | .simple => Q.nonnegative
  | .diagonalDominance =>
    let P := Q.nonnegative
    let fill : Vec α n := Vec.ofFn fun i => sum fun j : Fin n => P i j - Q i j
    let D : Mat α n n := Mat.diagonal fill
    Mat.ofFn fun i j => P i j + D i j
  | .absValue => Mat.ofFn fun i j => Arith.abs (Q i j)

end Policy

namespace Split

/-- Regularises the positive part `P` of the matrix and completes it to a split. -/
def complete (q : Quadratic α n) (P : Mat α n n) (epsilon : α) : Split α n :=
  let E : Mat α n n := Mat.diagonal fun _ => 1
  let posQ := Mat.ofFn fun i j => P i j + epsilon * E i j
  let posH : Vec α n := Vec.ofFn fun i => Arith.max (q.h i) 0 * (1 + epsilon)
  { posQ
    negQ := Mat.ofFn fun i j => posQ i j - q.Q i j
    posH
    negH := Vec.ofFn fun i => posH i - q.h i }

def build (p : Policy) (q : Quadratic α n) (epsilon : α) : Split α n :=
  complete q (p.positivePart q.Q) epsilon

/-- The part of the slope at `x` that makes coordinate `i` grow. -/
def growth (s : Split α n) (x : Vec α n) (i : Fin n) : α := Vec.dot (s.negQ i) x + s.posH i

/-- The part of the slope at `x` that makes coordinate `i` shrink. -/
def decay (s : Split α n) (x : Vec α n) (i : Fin n) : α := Vec.dot (s.posQ i) x + s.negH i

theorem build_negQ (p : Policy) (q : Quadratic α n) (epsilon : α) (i j : Fin n) :
    (build p q epsilon).negQ i j = (build p q epsilon).posQ i j - q.Q i j :=
  Mat.ofFn_apply _ i j

theorem build_negH (p : Policy) (q : Quadratic α n) (epsilon : α) (i : Fin n) :
    (build p q epsilon).negH i = (build p q epsilon).posH i - q.h i :=
  Vec.ofFn_apply _ i

theorem build_posH (p : Policy) (q : Quadratic α n) (epsilon : α) (i : Fin n) :
    (build p q epsilon).posH i = Arith.max (q.h i) 0 * (1 + epsilon) :=
  Vec.ofFn_apply _ i

theorem build_posQ (p : Policy) (q : Quadratic α n) (epsilon : α) (i j : Fin n) :
    (build p q epsilon).posQ i j
      = p.positivePart q.Q i j + epsilon * (if i = j then 1 else 0) := by
  rw [build, complete, Mat.ofFn_apply, Mat.diagonal, Mat.ofFn_apply]

end Split

/-- The starting point: the mean of the absolute linear terms plus the own one, over the diagonal. -/
def Quadratic.guess (q : Quadratic α n) : Vec α n :=
  let mean := (sum fun i : Fin n => Arith.abs (q.h i)) / Arith.ofInt n
  Vec.ofFn fun i => (mean + Arith.abs (q.h i)) / q.Q i i

end BoxQP
