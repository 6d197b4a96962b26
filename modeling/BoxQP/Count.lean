import BoxQP.Fault
import BoxQP.Setting

/-!
# Counts of steps

A count of steps is a whole number, or a real one that does the work of a whole number: a budget `x` is
spent by the first step number that is not below `x`, and a period `x` ends at the step numbers that are
multiples of `x`. The step counter has 64 bits with a sign. It cannot be compared with a whole number beyond
its range; a real one is compared with it as a real number and may be of any size, infinite or undefined,
but then the counter may never reach it.
-/

namespace BoxQP

/-- A count of steps: the whole number that does its work, and the real number it was given as. -/
structure Count (α : Type) where
  number : Nat
  real : Option α

namespace Count

variable {α : Type}

def whole (k : Nat) : Count α := { number := k, real := none }

/-- The step counter stays below this number. -/
def counterBound : Nat := Nat.pow 2 63

/-- Can the step counter be compared with the count at all? -/
def comparable (c : Count α) : Bool := c.real.isSome || decide (c.number < counterBound)

/-- Does the step counter come to a number that spends the count? -/
def fits (c : Count α) : Bool := decide (c.number < counterBound)

/-- Is the count, taken as a budget, spent after `k` steps? -/
def reached [Arith α] (c : Count α) (k : Nat) : Bool :=
  match c.real with
  | none => c.number ≤ k
  | some x => Arith.le x (Arith.ofInt k)

/-- A real budget, with the number of step numbers that leave it unspent. Those are all that the counter has
where the budget is infinite, and where it is undefined, since no comparison with it holds. -/
def budget [TextForm α] (x : α) : Count α where
  number :=
    match TextForm.quotient? x with
    | some (p, q) => min counterBound ((p.toNat + (q - 1)) / q)
    | none => counterBound
  real := some x

/-- A real period. The whole multiples of `p / q` in lowest terms are the multiples of `p`. Of a period that
is not finite no step number is a multiple, as none from one on is a multiple of zero. -/
def period [TextForm α] (x : α) : Count α where
  number :=
    match TextForm.quotient? x with
    | some (p, _) => max 1 p.toNat
    | none => 0
  real := some x

/-- The setting that gives this count. -/
def setting (c : Count α) : Setting α :=
  match c.real with
  | none => .integer c.number
  | some x => .real x

/-- A budget is shown as a whole number, which an infinite and an undefined one are refused. -/
def shown? [Arith α] (c : Count α) : Except Fault Unit :=
  match c.real with
  | none => .ok ()
  | some x =>
    if Arith.isFinite x then .ok ()
    else if Arith.lt 0 x then .error .infiniteBudget
    else .error .undefinedBudget

theorem comparable_of_fits {c : Count α} (inside : c.fits = true) : c.comparable = true := by
  rw [comparable, ← fits, inside, Bool.or_true]

theorem shown?_eq_ok_iff [Arith α] {c : Count α} :
    c.shown? = .ok () ↔ ∀ x ∈ c.real, Arith.isFinite x = true := by
  obtain ⟨number, real⟩ := c
  cases real with
  | none => simp [shown?]
  | some x =>
    have shown : shown? { number, real := some x } = if Arith.isFinite x then .ok ()
        else if Arith.lt 0 x then .error .infiniteBudget else .error .undefinedBudget := rfl
    rw [shown]
    split
    · simp_all
    · split <;> simp_all

theorem reached_whole [Arith α] (n k : Nat) : (whole n : Count α).reached k = decide (n ≤ k) := rfl

end Count

end BoxQP
