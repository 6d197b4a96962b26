import BoxQP.Cholesky
import BoxQP.Solve

/-!
# Inequality constraints through the dual

A strictly convex program, the minimum of `1/2 * z · H z + f · z` over `A z ≤ b`, has a dual over the
non-negative orthant with `Q = A H⁻¹ Aᵀ` and `h = -(A H⁻¹ f + b)`, and a multiplier `lam` gives back the
point `z = -H⁻¹ (f + Aᵀ lam)`. Both are stated for any way `solveH` to solve a system with `H`; the one in
use is by a Cholesky factor.
-/

namespace BoxQP

/-- A program with `n` unknowns and `m` inequalities, less the right-hand side of these. -/
structure Inequality (α : Type) (n m : Nat) where
  H : Mat α n n
  f : Vec α n
  A : Mat α m n

namespace Inequality

variable {α : Type} [Arith α] {n m : Nat}

/-- The dual objective; its matrix is the mean of the computed one and its transpose. -/
def dualBy (solveH : Vec α n → Vec α n) (p : Inequality α n m) (b : Vec α m) : Quadratic α m :=
  let columns : Mat α m n := Vec.ofFn fun j => solveH (p.A j)
  let M : Mat α m m := Mat.ofFn fun i j => Vec.dot (p.A i) (columns j)
  let image := p.A.apply (solveH p.f)
  { Q := Mat.ofFn fun i j => Arith.half * (M i j + M j i)
    h := Vec.ofFn fun i => -(image i + b i) }

/-- The point that minimises the Lagrangian for the multipliers `lam`. -/
def recoverBy (solveH : Vec α n → Vec α n) (p : Inequality α n m) (lam : Vec α m) : Vec α n :=
  let pull := p.A.transpose.apply lam
  let z := solveH (Vec.ofFn fun i => p.f i + pull i)
  Vec.ofFn fun i => -z i

def dual (p : Inequality α n m) (b : Vec α m) : Quadratic α m := p.dualBy (Factor.ofMat p.H).solve b

def recover (p : Inequality α n m) (lam : Vec α m) : Vec α n :=
  p.recoverBy (Factor.ofMat p.H).solve lam

/-- A program as it is written, without its right-hand side. -/
structure Statement (α : Type) where
  H : Literal α
  f : Literal α
  A : Literal α

omit [Arith α] in
/-- Fits `H`, `f`, `A` and the vector `r` of one entry for each inequality to each other. -/
def ofTensors? (H f A : Option (Tensor α)) (r : Tensor α) :
    Except Fault ((n : Nat) × (m : Nat) × Inequality α n m × Vec α m) :=
  match H, f, A with
  | some H, some f, some A =>
    match f.vector? with
    | none => .error (.linearTermRank f.shape)
    | some ⟨n, fv⟩ =>
      match H.matrixOf? n n with
      | none => .error (.hessianSizes H.shape n)
      | some HM =>
        let m := A.shape.headD 0
        match A.matrixOf? m n with
        | none => .error (.constraintColumns n A.shape)
        | some AM =>
          match r.vectorOf? m with
          | none => .error (.rightSideLength m r.shape)
          | some rv => .ok ⟨n, m, { H := HM, f := fv, A := AM }, rv⟩
  | _, _, _ => .error .missingInequality

/-- Reads a program with the vector `r`, whose lack is the fault `missing` and is noticed first. -/
def read? (a : Statement α) (r : Literal α) (missing : Fault) :
    Except Fault ((n : Nat) × (m : Nat) × Inequality α n m × Vec α m) := do
  if r.isNull then .error missing
  else
    let H ← a.H.read?
    let f ← a.f.read?
    let A ← a.A.read?
    let r ← r.read
    ofTensors? H f A r

def dual? (a : Statement α) (b : Literal α) : Except Fault ((m : Nat) × Quadratic α m) := do
  let ⟨_, m, p, b⟩ ← read? a b .missingRightSide
  .ok ⟨m, p.dual b⟩

def recover? (a : Statement α) (lam : Literal α) : Except Fault ((n : Nat) × Vec α n) := do
  let ⟨n, _, p, lam⟩ ← read? a lam .missingMultipliers
  .ok ⟨n, p.recover lam⟩

/-- The point, and the solution of the dual whose iterate holds the multipliers. -/
structure Solution (α : Type) where
  n : Nat
  z : Vec α n
  dual : (m : Nat) × BoxQP.Solution α m

end Inequality

end BoxQP
