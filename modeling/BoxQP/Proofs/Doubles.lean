import BoxQP.Double
import Mathlib

/-!
# Undefined and ordered doubles

A double is what its bits unpack to. Each operation of the arithmetic hands a number that is
none on to its result, and each comparison with one is false; two other doubles are always
comparable, by their places in one linear order. No claim is made here about rounding.
-/

namespace BoxQP

open Float.Model

namespace Double

/-- Sign, mantissa and exponent of a double, or what it is instead of a finite number. -/
def parts (x : Float) : UnpackedFloat := x.toModel.unpack

theorem lt_eq (a b : Float) : Arith.lt a b = (parts a).lt (parts b) := by
  change decide (decide ((parts a).lt (parts b) = true) = true) = _
  rw [Bool.decide_eq_true, Bool.decide_eq_true]

theorem le_eq (a b : Float) : Arith.le a b = (parts a).le (parts b) := by
  change decide (decide ((parts a).le (parts b) = true) = true) = _
  rw [Bool.decide_eq_true, Bool.decide_eq_true]

theorem isNaN_iff (x : Float) : x.isNaN = true ↔ parts x = .notANumber := by
  change (parts x).isNaN = true ↔ _
  cases parts x <;> simp [UnpackedFloat.isNaN]

section Undefined

variable {a b : Float}

/-- An operation that hands undefined operands on before its result is packed. -/
theorem isNaN_of_op (op : UnpackedFloat → UnpackedFloat → UnpackedFloat)
    (left : ∀ v, op .notANumber v = .notANumber) (right : ∀ u, op u .notANumber = .notANumber)
    {x : Float} (made : parts x = (pack (op (parts a) (parts b))).unpack)
    (one : a.isNaN = true ∨ b.isNaN = true) : x.isNaN = true := by
  have undefined : op (parts a) (parts b) = .notANumber := by
    simp only [isNaN_iff] at one
    rcases one with first | second
    · rw [first, left]
    · rw [second, right]
  rw [isNaN_iff, made, undefined]
  rfl

theorem isNaN_add (one : a.isNaN = true ∨ b.isNaN = true) : (a + b).isNaN = true :=
  isNaN_of_op (UnpackedFloat.add .binary64) (fun _ => rfl) (fun u => by cases u <;> rfl) rfl one

theorem isNaN_sub (one : a.isNaN = true ∨ b.isNaN = true) : (a - b).isNaN = true :=
  isNaN_of_op (UnpackedFloat.sub .binary64) (fun _ => rfl) (fun u => by cases u <;> rfl) rfl one

theorem isNaN_mul (one : a.isNaN = true ∨ b.isNaN = true) : (a * b).isNaN = true :=
  isNaN_of_op (UnpackedFloat.mul .binary64) (fun _ => rfl) (fun u => by cases u <;> rfl) rfl one

theorem isNaN_div (one : a.isNaN = true ∨ b.isNaN = true) : (a / b).isNaN = true :=
  isNaN_of_op (UnpackedFloat.div .binary64) (fun _ => rfl) (fun u => by cases u <;> rfl) rfl one

theorem isNaN_neg (undefined : a.isNaN = true) : (-a).isNaN = true := by
  rw [isNaN_iff] at undefined ⊢
  change (pack (parts a).neg).unpack = _
  rw [undefined]
  rfl

theorem isNaN_abs (undefined : a.isNaN = true) : a.abs.isNaN = true := by
  rw [isNaN_iff] at undefined ⊢
  change (pack (parts a).abs).unpack = _
  rw [undefined]
  rfl

theorem isNaN_larger (one : a.isNaN = true ∨ b.isNaN = true) : (larger a b).isNaN = true := by
  unfold larger
  split
  · assumption
  · rename_i defined
    rw [if_pos (one.resolve_left defined)]
    exact one.resolve_left defined

theorem lt_eq_false_of_isNaN (one : a.isNaN = true ∨ b.isNaN = true) : Arith.lt a b = false := by
  simp only [isNaN_iff] at one
  rw [lt_eq]
  rcases one with first | second
  · rw [first]
    rfl
  · rw [second]
    cases parts a <;> rfl

end Undefined

section Order

variable {u v : UnpackedFloat}

theorem compare_swap (u v : UnpackedFloat) : v.compare u = (u.compare v).map Ordering.swap := by
  have order (e f : Int) (k l : Nat) :
      ((compare e f).then (compare k l)).swap = (compare f e).then (compare l k) := by
    rw [Ordering.swap_then, Int.compare_swap, Nat.compare_swap]
  cases u with
  | notANumber => cases v <;> rfl
  | infinity s =>
    cases s <;> cases v with
    | notANumber => rfl
    | infinity t => cases t <;> rfl
    | zero _ => rfl
    | finite t _ _ _ => rfl
  | zero s =>
    cases v with
    | notANumber => rfl
    | infinity t => cases t <;> rfl
    | zero _ => rfl
    | finite t _ _ _ => cases t <;> rfl
  | finite s _ _ _ =>
    cases s <;> cases v with
    | notANumber => rfl
    | infinity t => cases t <;> rfl
    | zero _ => rfl
    | finite t _ _ _ => cases t <;> simp [UnpackedFloat.compare, order]

/-- Only an undefined number has no place in the order. -/
theorem compare_isSome (u_defined : u ≠ .notANumber) (v_defined : v ≠ .notANumber) :
    (u.compare v).isSome = true := by
  cases u with
  | notANumber => contradiction
  | infinity s =>
    cases v with
    | notANumber => contradiction
    | _ => cases s <;> rfl
  | zero s =>
    cases v with
    | notANumber => contradiction
    | zero _ => rfl
    | infinity t | finite t => cases t <;> rfl
  | finite s =>
    cases v with
    | notANumber => contradiction
    | zero _ => cases s <;> rfl
    | infinity t | finite t => cases s <;> cases t <;> rfl

/-- A number that is not below a defined one is undefined itself, or not less. -/
theorem isNaN_or_le {a b : Float} (defined : a.isNaN = false) (above : Arith.lt b a = false) :
    b.isNaN = true ∨ Arith.le a b = true := by
  by_cases undefined : b.isNaN = true
  · exact Or.inl undefined
  · right
    have a_number : parts a ≠ .notANumber := fun none_such => by
      rw [(isNaN_iff a).mpr none_such] at defined
      cases defined
    have b_number : parts b ≠ .notANumber :=
      fun none_such => undefined ((isNaN_iff b).mpr none_such)
    obtain ⟨o, placed⟩ := Option.isSome_iff_exists.mp (compare_isSome b_number a_number)
    rw [lt_eq, UnpackedFloat.lt, placed] at above
    rw [le_eq, UnpackedFloat.le, compare_swap (parts b), placed]
    cases o with
    | lt => cases above
    | eq => rfl
    | gt => rfl

/-- The place of a number in the order: its kind first, then exponent and mantissa, which
count downwards below zero. -/
def place : UnpackedFloat → ℤ ×ₗ ℤ ×ₗ ℤ
  | .infinity .negative => toLex (-2, toLex (0, 0))
  | .finite .negative m e _ => toLex (-1, toLex (-e, -m))
  | .zero _ | .notANumber => toLex (0, toLex (0, 0))
  | .finite .positive m e _ => toLex (1, toLex (e, m))
  | .infinity .positive => toLex (2, toLex (0, 0))

theorem toLex_lt_iff (k l e f m n : ℤ) :
    toLex (k, toLex (e, m)) < toLex (l, toLex (f, n))
      ↔ k < l ∨ k = l ∧ (e < f ∨ e = f ∧ m < n) := by
  rw [Prod.Lex.toLex_lt_toLex, Prod.Lex.toLex_lt_toLex]

/-- Defined numbers are compared by their places. -/
theorem compare_eq_lt_iff (u_defined : u ≠ .notANumber) (v_defined : v ≠ .notANumber) :
    u.compare v = some .lt ↔ place u < place v := by
  have less (e f : Int) (k l : Nat) :
      (compare e f).then (compare k l) = .lt ↔ e < f ∨ e = f ∧ k < l := by
    rw [Ordering.then_eq_lt, compare_lt_iff_lt, compare_eq_iff_eq, compare_lt_iff_lt]
  have greater (e f : Int) (k l : Nat) :
      (compare e f).then (compare k l) = .gt ↔ f < e ∨ e = f ∧ l < k := by
    rw [Ordering.then_eq_gt, compare_gt_iff_gt, compare_eq_iff_eq, compare_gt_iff_gt]
  cases u with
  | notANumber => contradiction
  | infinity s =>
    cases v with
    | notANumber => contradiction
    | infinity t => cases s <;> cases t <;> decide
    | zero _ => cases s <;> simp [UnpackedFloat.compare, place, toLex_lt_iff]
    | finite t => cases s <;> cases t <;> simp [UnpackedFloat.compare, place, toLex_lt_iff]
  | zero s =>
    cases v with
    | notANumber => contradiction
    | zero _ => simp [UnpackedFloat.compare, place]
    | infinity t | finite t => cases t <;> simp [UnpackedFloat.compare, place, toLex_lt_iff]
  | finite s m e =>
    cases v with
    | notANumber => contradiction
    | zero _ => cases s <;> simp [UnpackedFloat.compare, place, toLex_lt_iff]
    | infinity t => cases s <;> cases t <;> simp [UnpackedFloat.compare, place, toLex_lt_iff]
    | finite t k f =>
      cases s <;> cases t
      · simp [UnpackedFloat.compare, place, toLex_lt_iff, greater]
      · simp [UnpackedFloat.compare, place, toLex_lt_iff]
      · simp [UnpackedFloat.compare, place, toLex_lt_iff]
      · simp [UnpackedFloat.compare, place, toLex_lt_iff, less]

theorem lt_iff : u.lt v = true ↔ u ≠ .notANumber ∧ v ≠ .notANumber ∧ place u < place v := by
  constructor
  · intro below
    have u_defined : u ≠ .notANumber := by
      rintro rfl
      cases v <;> cases below
    have v_defined : v ≠ .notANumber := by
      rintro rfl
      cases u <;> cases below
    exact ⟨u_defined, v_defined, (compare_eq_lt_iff u_defined v_defined).mp (eq_of_beq below)⟩
  · rintro ⟨u_defined, v_defined, below⟩
    rw [UnpackedFloat.lt, (compare_eq_lt_iff u_defined v_defined).mpr below]
    rfl

/-- A number that is at most another one is not placed after it. -/
theorem place_le_of_le (below : u.le v = true) : v ≠ .notANumber ∧ place u ≤ place v := by
  have u_defined : u ≠ .notANumber := by
    rintro rfl
    cases v <;> cases below
  have v_defined : v ≠ .notANumber := by
    rintro rfl
    cases u <;> cases below
  refine ⟨v_defined, not_lt.mp fun above => ?_⟩
  rw [← compare_eq_lt_iff v_defined u_defined, compare_swap] at above
  rw [UnpackedFloat.le] at below
  cases placed : u.compare v with
  | none =>
    rw [placed] at below
    cases below
  | some o =>
    rw [placed] at above below
    cases o with
    | lt => cases above
    | eq => cases above
    | gt => cases below

theorem lt_of_lt_of_le {a b c : Float} (below : Arith.lt a b = true) (least : Arith.le b c = true) :
    Arith.lt a c = true := by
  rw [lt_eq, lt_iff] at below ⊢
  rw [le_eq] at least
  obtain ⟨c_defined, after⟩ := place_le_of_le least
  exact ⟨below.1, c_defined, below.2.2.trans_le after⟩

end Order

end Double

end BoxQP
