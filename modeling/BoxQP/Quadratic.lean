import BoxQP.Tensor

/-!
# The quadratic objective

The objective is `f x = 1/2 * x · Q x - h · x`, its slope is `Q x - h`, and the residual of a point is the
largest `x i * |slope i|`, the failure of complementarity over the non-negative orthant.
-/

namespace BoxQP

structure Quadratic (α : Type) (n : Nat) where
  Q : Mat α n n
  h : Vec α n

namespace Quadratic

variable {α : Type} [Arith α] {n : Nat}

def value (q : Quadratic α n) (x : Vec α n) : α :=
  Arith.half * Vec.dot x (q.Q.apply x) - Vec.dot q.h x

def slope (q : Quadratic α n) (x : Vec α n) : Vec α n :=
  Vec.ofFn fun i => Vec.dot (q.Q i) x - q.h i

/-- How far each coordinate is from having no slope or being zero. -/
def complementarity (q : Quadratic α n) (x : Vec α n) : Vec α n :=
  let g := q.slope x
  Vec.ofFn fun i => x i * Arith.abs (g i)

def residual (q : Quadratic α n) (x : Vec α n) : α := Vec.largest (q.complementarity x)

theorem slope_apply (q : Quadratic α n) (x : Vec α n) (i : Fin n) :
    q.slope x i = Vec.dot (q.Q i) x - q.h i :=
  Vec.ofFn_apply _ i

theorem complementarity_apply (q : Quadratic α n) (x : Vec α n) (i : Fin n) :
    q.complementarity x i = x i * Arith.abs (q.slope x i) :=
  Vec.ofFn_apply _ i

omit [Arith α] in
/-- Problem data on arrays: a square matrix and a vector of its size. -/
def ofTensors? (Q h : Option (Tensor α)) : Except Fault ((n : Nat) × Quadratic α n) :=
  match Q, h.bind Tensor.vector? with
  | some Q, some ⟨n, h⟩ =>
    match Q.matrixOf? n n with
    | some Q => .ok ⟨n, ⟨Q, h⟩⟩
    | none => .error .contract
  | _, _ => .error .contract

omit [Arith α] in
/-- A point and problem data on arrays, all of one size. -/
def withPoint? (x Q h : Option (Tensor α)) : Except Fault ((n : Nat) × Quadratic α n × Vec α n) := do
  let ⟨n, q⟩ ← ofTensors? Q h
  match x.bind (Tensor.vectorOf? n) with
  | some x => .ok ⟨n, q, x⟩
  | none => .error .contract

/-- The residual where there is a coordinate; none of nothing is the largest. -/
def residual? (q : Quadratic α n) (x : Vec α n) : Except Fault α :=
  if n = 0 then .error .emptyMaximum else .ok (q.residual x)

end Quadratic

end BoxQP
