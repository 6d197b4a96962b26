import BoxQP.Proofs.Doubles
import Mathlib

/-!
# Products of positive doubles

A double keeps a mantissa of at most 53 bits, all of them used above the smallest exponent.
Rounding ends in that form and never falls below a power of two that the exact number
reaches, and packing gives the number back or an infinite one. A whole number from one on
is therefore at least one as a double, and its product with a positive double is positive.
Nothing is said about how close a rounded number is.
-/

namespace BoxQP

open Float.Model Float.Model.UnpackedFloat

namespace Double

/-- Mantissa and exponent as a double keeps them. -/
structure Canonical (m : Nat) (e : Int) : Prop where
  mantissa : m < 2 ^ 53
  exponent : -1074 ≤ e
  full : 2 ^ 52 ≤ m ∨ e = -1074

theorem toNat_one_append (m : BitVec 52) : (1#1 ++ m).toNat = 2 ^ 52 + m.toNat := by
  rw [BitVec.toNat_append, ← Nat.shiftLeft_add_eq_or_of_lt m.isLt, Nat.shiftLeft_eq]
  rfl

theorem parts_canonical {x : Float} {s : Sign} {m : Nat} {e : Int} {positive : 0 < m}
    (finite : parts x = .finite s m e positive) : Canonical m e := by
  let field : BitVec 11 := @unpackExponent .binary64 x.toModel.toBits.toBitVec
  let fraction : BitVec 52 := @unpackMantissa .binary64 x.toModel.toBits.toBitVec
  simp only [parts, Float.Model.unpack, UnpackedFloat.unpack] at finite
  split at finite
  · split at finite <;> cases finite
  · split at finite
    · rename_i zero
      split at finite
      · cases finite
      · cases finite
        have smallest : (field.toNat : Int) - (1023 + 52) + 1 = -1074 := by
          rw [show field = 0#11 from zero]
          decide
        exact ⟨fraction.isLt.trans (by decide), smallest.ge, Or.inr smallest⟩
    · rename_i normal
      cases finite
      have first : 1 ≤ field.toNat := by
        by_contra low
        exact normal (BitVec.eq_of_toNat_eq (Nat.lt_one_iff.mp (Nat.lt_of_not_le low)))
      refine ⟨BitVec.isLt _, ?_, Or.inl ?_⟩
      · change -1074 ≤ (field.toNat : Int) - (1023 + 52)
        omega
      · exact (toNat_one_append fraction).ge.trans' (Nat.le_add_right _ _)

theorem shiftRight_mantissa (em : ExtendedMantissa) (k : Nat) :
    (em >>> k).mantissa = em.mantissa / 2 ^ k := by
  change (k.repeat ExtendedMantissa.shiftRightOne em).mantissa = _
  induction k with
  | zero => exact (Nat.div_one _).symm
  | succ k ih =>
    rw [Nat.repeat, ExtendedMantissa.shiftRightOne, ih, Nat.div_div_eq_div_mul, ← Nat.pow_succ]

theorem ofMantissaAndAccuracy_mantissa (m : Nat) (a : Accuracy) :
    (ExtendedMantissa.ofMantissaAndAccuracy m a).mantissa = m := by
  unfold ExtendedMantissa.ofMantissaAndAccuracy
  split <;> rfl

theorem le_roundedMantissa (em : ExtendedMantissa) :
    em.mantissa ≤ em.roundedMantissa ∧ em.roundedMantissa ≤ em.mantissa + 1 := by
  unfold ExtendedMantissa.roundedMantissa Accuracy.roundToNearestEven
  split <;> omega

/-- The number of bits that a mantissa loses where it is brought to the target exponent. -/
def excess (m : Nat) (e : Int) : Nat := (max (m.log2 + 1 + e - 53) (-1074) - e).toNat

/-- Rounding drops the excess, rounds up by one at most and drops what exceeds again. -/
theorem exists_rounded (s : Sign) (m : Nat) (e : Int) :
    ∃ r, m / 2 ^ excess m e ≤ r ∧ r ≤ m / 2 ^ excess m e + 1 ∧
      ∀ positive : 0 < r / 2 ^ excess r (e + excess m e),
        roundWithAccuracy .binary64 s m e .exact
          = .finite s (r / 2 ^ excess r (e + excess m e))
              (e + excess m e + excess r (e + excess m e)) positive := by
  let first := ExtendedMantissa.ofMantissaAndAccuracy m .exact >>> excess m e
  have dropped : first.mantissa = m / 2 ^ excess m e := by
    rw [shiftRight_mantissa, ofMantissaAndAccuracy_mantissa]
  obtain ⟨above, below⟩ := le_roundedMantissa first
  refine ⟨first.roundedMantissa, dropped ▸ above, dropped ▸ below, fun positive => ?_⟩
  let r := first.roundedMantissa
  let second := ExtendedMantissa.ofMantissaAndAccuracy r .exact >>> excess r (e + excess m e)
  have final : second.mantissa = r / 2 ^ excess r (e + excess m e) := by
    rw [shiftRight_mantissa, ofMantissaAndAccuracy_mantissa]
  change (if h : second.mantissa = 0 then UnpackedFloat.zero s
    else .finite s second.mantissa (e + excess m e + excess r (e + excess m e))
      (Nat.pos_of_ne_zero h)) = _
  simp only [final]
  exact dif_neg positive.ne'

/-- A mantissa that fits loses nothing. -/
theorem excess_eq_zero {m : Nat} {e : Int} (fits : m < 2 ^ 53) (low : -1074 ≤ e) :
    excess m e = 0 := by
  have bits : m.log2 < 53 := by
    by_cases zero : m = 0
    · subst zero
      decide
    · exact (Nat.log2_lt zero).mpr fits
  unfold excess
  omega

theorem excess_two_pow {e : Int} (low : -1074 ≤ e) : excess (2 ^ 53) e = 1 := by
  rw [excess, Nat.log2_two_pow]
  omega

section Round

variable {m : Nat} {e t : Int} (positive : 0 < m) (fine : e ≤ max (m.log2 + 1 + e - 53) (-1074))
include positive fine

/-- Above the smallest exponent a mantissa is cut to exactly 53 bits. -/
theorem excess_normal (normal : -1074 ≤ m.log2 + e - 52) :
    e + excess m e = m.log2 + e - 52 ∧ 2 ^ 52 ≤ m / 2 ^ excess m e ∧
      m / 2 ^ excess m e < 2 ^ 53 := by
  obtain ⟨k, bits⟩ : ∃ k, m.log2 = 52 + k := ⟨m.log2 - 52, by omega⟩
  have dropped : excess m e = k := by
    unfold excess
    omega
  rw [dropped]
  refine ⟨by omega, ?_, ?_⟩
  · rw [Nat.le_div_iff_mul_le (Nat.two_pow_pos k), ← Nat.pow_add, ← bits]
    exact Nat.log2_self_le positive.ne'
  · rw [Nat.div_lt_iff_lt_mul (Nat.two_pow_pos k), ← Nat.pow_add]
    have upper : m < 2 ^ (m.log2 + 1) := Nat.lt_log2_self
    rwa [bits, show 52 + k + 1 = 53 + k by omega] at upper

/-- At the smallest exponent it keeps less than 52 bits, and a power of two that it reaches. -/
theorem excess_subnormal (subnormal : m.log2 + e - 52 < -1074) (above : t ≤ m.log2 + e)
    (low : -1074 ≤ t) :
    e + excess m e = -1074 ∧ 2 ^ (t + 1074).toNat ≤ m / 2 ^ excess m e ∧
      m / 2 ^ excess m e < 2 ^ 52 := by
  have place : e + excess m e = -1074 := by
    unfold excess
    omega
  refine ⟨place, ?_, ?_⟩
  · rw [Nat.le_div_iff_mul_le (Nat.two_pow_pos _), ← Nat.pow_add]
    have inside : (t + 1074).toNat + excess m e ≤ m.log2 := by omega
    exact (Nat.pow_le_pow_right Nat.two_pos inside).trans (Nat.log2_self_le positive.ne')
  · rw [Nat.div_lt_iff_lt_mul (Nat.two_pow_pos _), ← Nat.pow_add]
    have inside : m.log2 + 1 ≤ 52 + excess m e := by omega
    exact Nat.lt_log2_self.trans_le (Nat.pow_le_pow_right Nat.two_pos inside)

/-- Where the exponent leaves the mantissa bits enough, what is rounded is canonical, and
still reaches every power of two from the smallest double on that it did before. -/
theorem round_canonical (s : Sign) (low : -1074 ≤ t) (above : t ≤ m.log2 + e) :
    ∃ m' e' positive', roundWithAccuracy .binary64 s m e .exact = .finite s m' e' positive' ∧
      Canonical m' e' ∧ t ≤ m'.log2 + e' := by
  obtain ⟨r, least, most, rounded⟩ := exists_rounded s m e
  by_cases normal : -1074 ≤ m.log2 + e - 52
  · obtain ⟨place, full, fits⟩ := excess_normal positive fine normal
    have exponent : -1074 ≤ e + excess m e := by omega
    by_cases carry : r < 2 ^ 53
    · have kept : excess r (e + excess m e) = 0 := excess_eq_zero carry exponent
      rw [kept, Nat.pow_zero, Nat.div_one] at rounded
      have bits : 52 ≤ r.log2 := (Nat.le_log2 (by omega)).mpr (full.trans least)
      refine ⟨r, _, _, rounded (by omega), ⟨carry, by omega, Or.inl (full.trans least)⟩, ?_⟩
      omega
    · -- Rounded up to one bit more, it is halved without a loss.
      obtain rfl : r = 2 ^ 53 := by omega
      have kept : excess (2 ^ 53) (e + excess m e) = 1 := excess_two_pow exponent
      rw [kept] at rounded
      refine ⟨2 ^ 52, _, _, rounded (by decide), ⟨by decide, by omega, Or.inl le_rfl⟩, ?_⟩
      rw [Nat.log2_two_pow]
      omega
  · obtain ⟨place, reached, fits⟩ := excess_subnormal positive fine (by omega) above low
    have carry : r < 2 ^ 53 := by omega
    have kept : excess r (e + excess m e) = 0 := excess_eq_zero carry place.ge
    have nonzero : r ≠ 0 := ((Nat.two_pow_pos _).trans_le (reached.trans least)).ne'
    rw [kept, Nat.pow_zero, Nat.div_one] at rounded
    have bits : (t + 1074).toNat ≤ r.log2 := (Nat.le_log2 nonzero).mpr (reached.trans least)
    refine ⟨r, _, _, rounded (by omega), ⟨carry, by omega, Or.inr (by omega)⟩, by omega⟩

end Round

theorem unpack_pack_infinity (s : Sign) :
    (Float.Model.pack (.infinity s)).unpack = .infinity s := by
  cases s <;> rfl

/-- What sign, exponent field and fraction are read back as. -/
theorem unpack_packComponents (s : Sign) (f : BitVec 11) (m : BitVec 52) :
    UnpackedFloat.unpack .binary64 (packComponents .binary64 s f m) =
      if f = 2047#11 then if m = 0#52 then .infinity s else .notANumber
      else if f = 0#11 then
        if h : m = 0#52 then .zero s
        else .finite s m.toNat (-1074) (by simpa [BitVec.toNat_pos, BitVec.pos_iff_ne_zero])
      else .finite s (1#1 ++ m).toNat (f.toNat - 1075) (by rw [toNat_one_append]; omega) := by
  unfold UnpackedFloat.unpack
  simp only [unpackMantissa_packComponents, unpackExponent_packComponents]
  rw [unpackSign_packComponents, Sign.ofBitVec_toBitVec]
  by_cases zero : f = 0#11
  · subst zero
    rfl
  · simp only [if_neg zero]
    rfl

theorem ofNat_ne {w j k : Nat} (inside : k < 2 ^ w) (other : k ≠ j % 2 ^ w) :
    BitVec.ofNat w k ≠ BitVec.ofNat w j := by
  intro same
  have values := congrArg BitVec.toNat same
  rw [BitVec.toNat_ofNat, BitVec.toNat_ofNat, Nat.mod_eq_of_lt inside] at values
  exact other values

section Pack

variable {m : Nat} {e : Int} (s : Sign) (positive : 0 < m)

theorem unpack_pack_large (large : 2 ^ 11 ≤ (e + 1023 + 52).toNat + 1) :
    (Float.Model.pack (.finite s m e positive)).unpack = .infinity s := by
  have packed : UnpackedFloat.pack .binary64 (.finite s m e positive)
      = packedInfinity .binary64 s := if_pos large
  change UnpackedFloat.unpack .binary64 (UnpackedFloat.pack .binary64 _) = _
  rw [packed]
  exact unpack_pack_infinity s

theorem unpack_pack_normal (low : -1074 ≤ e) (inside : ¬ 2 ^ 11 ≤ (e + 1023 + 52).toNat + 1)
    (full : 2 ^ 52 ≤ m) (fits : m < 2 ^ 53) :
    (Float.Model.pack (.finite s m e positive)).unpack = .finite s m e positive := by
  have bits : m.log2 + 1 = 53 :=
    congrArg (· + 1) ((Nat.log2_eq_iff positive.ne').mpr ⟨full, fits⟩)
  have packed : UnpackedFloat.pack .binary64 (.finite s m e positive)
      = packComponents .binary64 s (BitVec.ofNat 11 (e + 1023 + 52).toNat) (BitVec.ofNat 52 m) :=
    (if_neg inside).trans (if_pos bits)
  have finite : BitVec.ofNat 11 (e + 1023 + 52).toNat ≠ BitVec.ofNat 11 2047 :=
    ofNat_ne (by omega) (by omega)
  have nonzero : BitVec.ofNat 11 (e + 1023 + 52).toNat ≠ BitVec.ofNat 11 0 :=
    ofNat_ne (by omega) (by omega)
  have field : (BitVec.ofNat 11 (e + 1023 + 52).toNat).toNat = (e + 1075).toNat := by
    rw [BitVec.toNat_ofNat]
    omega
  have mantissa : (1#1 ++ BitVec.ofNat 52 m).toNat = m := by
    rw [toNat_one_append, BitVec.toNat_ofNat]
    omega
  change UnpackedFloat.unpack .binary64 (UnpackedFloat.pack .binary64 _) = _
  rw [packed, unpack_packComponents, if_neg finite, if_neg nonzero]
  simp only [mantissa, field]
  congr 1
  omega

theorem unpack_pack_subnormal (smallest : e = -1074) (part : m < 2 ^ 52) :
    (Float.Model.pack (.finite s m e positive)).unpack = .finite s m e positive := by
  have bits : ¬ m.log2 + 1 = 53 := by
    have := (Nat.log2_lt positive.ne').mpr part
    omega
  have inside : ¬ 2 ^ 11 ≤ (e + 1023 + 52).toNat + 1 := by omega
  have packed : UnpackedFloat.pack .binary64 (.finite s m e positive)
      = packComponents .binary64 s 0#11 (BitVec.ofNat 52 m) :=
    (if_neg inside).trans (if_neg bits)
  have nonzero : BitVec.ofNat 52 m ≠ BitVec.ofNat 52 0 := ofNat_ne part positive.ne'
  have mantissa : (BitVec.ofNat 52 m).toNat = m := by
    rw [BitVec.toNat_ofNat, Nat.mod_eq_of_lt part]
  change UnpackedFloat.unpack .binary64 (UnpackedFloat.pack .binary64 _) = _
  rw [packed, unpack_packComponents, if_neg (by decide), if_pos rfl, dif_neg nonzero]
  simp only [mantissa, smallest]

/-- A canonical number that is packed is read back as it is, or has become infinite. -/
theorem unpack_pack (canonical : Canonical m e) :
    (Float.Model.pack (.finite s m e positive)).unpack = .infinity s ∨
      (Float.Model.pack (.finite s m e positive)).unpack = .finite s m e positive := by
  by_cases large : 2 ^ 11 ≤ (e + 1023 + 52).toNat + 1
  · exact Or.inl (unpack_pack_large s positive large)
  · right
    by_cases full : 2 ^ 52 ≤ m
    · exact unpack_pack_normal s positive canonical.exponent large full canonical.mantissa
    · exact unpack_pack_subnormal s positive (canonical.full.resolve_left full)
        (Nat.lt_of_not_le full)

end Pack

/-- At least the power `2 ^ t`. -/
def Reaches (t : Int) (u : UnpackedFloat) : Prop :=
  u = .infinity .positive ∨
    ∃ m e positive, u = .finite .positive m e positive ∧ Canonical m e ∧ t ≤ m.log2 + e

variable {t u : Int} {a b : Float}

theorem Reaches.mono {v : UnpackedFloat} (reached : Reaches u v) (least : t ≤ u) : Reaches t v := by
  rcases reached with infinite | ⟨m, e, positive, same, canonical, above⟩
  · exact Or.inl infinite
  · exact Or.inr ⟨m, e, positive, same, canonical, least.trans above⟩

theorem Reaches.pack {m : Nat} {e : Int} (canonical : Canonical m e) (positive : 0 < m)
    (above : t ≤ m.log2 + e) :
    Reaches t (Float.Model.pack (.finite .positive m e positive)).unpack :=
  (unpack_pack .positive positive canonical).imp_right fun same =>
    ⟨m, e, positive, same, canonical, above⟩

/-- The product of two canonical mantissas leaves bits enough to round. -/
theorem fine_mul {m₁ m₂ : Nat} {e₁ e₂ : Int} (first : Canonical m₁ e₁) (second : Canonical m₂ e₂)
    (positive₁ : 0 < m₁) (positive₂ : 0 < m₂) :
    m₁.log2 + m₂.log2 ≤ (m₁ * m₂).log2 ∧
      e₁ + e₂ ≤ max ((m₁ * m₂).log2 + 1 + (e₁ + e₂) - 53) (-1074) := by
  have product : m₁.log2 + m₂.log2 ≤ (m₁ * m₂).log2 := by
    rw [Nat.le_log2 (Nat.mul_pos positive₁ positive₂).ne', Nat.pow_add]
    exact Nat.mul_le_mul (Nat.log2_self_le positive₁.ne') (Nat.log2_self_le positive₂.ne')
  have full {m : Nat} (normal : 2 ^ 52 ≤ m) : 52 ≤ m.log2 :=
    (Nat.le_log2 (by omega)).mpr normal
  refine ⟨product, ?_⟩
  have low := first.exponent
  rcases first.full with normal | smallest
  · have := full normal
    omega
  · rcases second.full with normal | smallest'
    · have := full normal
      omega
    · omega

theorem Reaches.mul {v w : UnpackedFloat} (first : Reaches t v) (second : Reaches u w)
    (low : -1074 ≤ t + u) :
    Reaches (t + u) (Float.Model.pack (UnpackedFloat.mul .binary64 v w)).unpack := by
  have infinite (r : Int) : Reaches r (Float.Model.pack (.infinity .positive)).unpack :=
    Or.inl (unpack_pack_infinity .positive)
  rcases first with rfl | ⟨m₁, e₁, positive₁, rfl, canonical₁, above₁⟩
  · rcases second with rfl | ⟨m₂, e₂, positive₂, rfl, -⟩
    · exact infinite _
    · exact infinite _
  · rcases second with rfl | ⟨m₂, e₂, positive₂, rfl, canonical₂, above₂⟩
    · exact infinite _
    · obtain ⟨bits, fine⟩ := fine_mul canonical₁ canonical₂ positive₁ positive₂
      obtain ⟨m, e, positive, rounded, canonical, above⟩ :=
        round_canonical (Nat.mul_pos positive₁ positive₂) fine .positive low (by omega)
      change Reaches _ (Float.Model.pack
        (roundWithAccuracy .binary64 .positive (m₁ * m₂) (e₁ + e₂) .exact)).unpack
      rw [rounded]
      exact .pack canonical positive above

theorem reaches_mul (first : Reaches t (parts a)) (second : Reaches u (parts b))
    (low : -1074 ≤ t + u) : Reaches (t + u) (parts (a * b)) := first.mul second low

theorem pos_iff_reaches (x : Float) : Arith.lt 0 x = true ↔ Reaches (-1074) (parts x) := by
  have zero : parts 0 = .zero .positive := rfl
  rw [lt_eq, zero]
  cases shape : parts x with
  | notANumber => simp [Reaches, UnpackedFloat.lt, UnpackedFloat.compare]
  | infinity s => cases s <;> simp [Reaches, UnpackedFloat.lt, UnpackedFloat.compare]
  | zero s => simp [Reaches, UnpackedFloat.lt, UnpackedFloat.compare]
  | finite s m e positive =>
    have canonical := parts_canonical shape
    have low := canonical.exponent
    cases s with
    | negative => simp [Reaches, UnpackedFloat.lt, UnpackedFloat.compare]
    | positive =>
      refine iff_of_true rfl (Or.inr ⟨m, e, positive, rfl, canonical, by omega⟩)

theorem log2_shiftLeft {m : Nat} (positive : 0 < m) (k : Nat) : (m <<< k).log2 = m.log2 + k := by
  rw [Nat.log2_eq_iff (by rw [Nat.shiftLeft_eq]; positivity), Nat.shiftLeft_eq, Nat.pow_add,
    show m.log2 + k + 1 = m.log2 + 1 + k by omega, Nat.pow_add]
  exact ⟨Nat.mul_le_mul_right _ (Nat.log2_self_le positive.ne'),
    Nat.mul_lt_mul_of_pos_right Nat.lt_log2_self (Nat.two_pow_pos k)⟩

/-- Rounding from any mantissa, with bits appended where it has too few. -/
theorem reaches_round {m : Nat} {e : Int} (positive : 0 < m) (low : -1074 ≤ t)
    (above : t ≤ m.log2 + e) :
    Reaches t (Float.Model.pack (UnpackedFloat.round .binary64 .positive m e)).unpack := by
  let k := (e - max (m.log2 + 1 + e - 53) (-1074)).toNat
  have bits : (m <<< k).log2 = m.log2 + k := log2_shiftLeft positive k
  have shifted : 0 < m <<< k := by
    rw [Nat.shiftLeft_eq]
    positivity
  obtain ⟨m', e', positive', rounded, canonical, above'⟩ :=
    round_canonical (m := m <<< k) (e := e - k) (t := t) shifted (by omega) .positive low (by omega)
  have same : UnpackedFloat.round .binary64 .positive m e
      = roundWithAccuracy .binary64 .positive (m <<< k) (e - k) .exact := rfl
  rw [same, rounded]
  exact .pack canonical positive' above'

/-- A whole number from one on is at least one as a double. -/
theorem reaches_ofUInt64 (k : UInt64) (positive : 0 < k.toNat) : Reaches 0 (parts k.toFloat) := by
  have same : parts k.toFloat = (Float.Model.pack
      (UnpackedFloat.normalize .binary64 (k.toNat : Int) 0 .positive)).unpack := rfl
  have greater : compare (k.toNat : Int) 0 = .gt := by
    rw [compare_gt_iff_gt]
    omega
  rw [same, UnpackedFloat.normalize, greater]
  exact reaches_round positive (by omega) (by omega)

/-- A decimal that fits into the mantissa is converted and scaled by one. -/
theorem ofScientific_small {k : Nat} (small : k < 2 ^ 53) :
    Float.ofScientific k false 0 = k.toUInt64.toFloat * Float.ofBits 0x3FF0000000000000 :=
  dif_pos ⟨small, by decide⟩

/-- A longer one is rounded once, after as many bits as a mantissa has are appended. -/
theorem parts_ofScientific_large {k : Nat} (large : ¬ k < 2 ^ 53) :
    parts (Float.ofScientific k false 0) = (Float.Model.pack
      (roundWithAccuracy .binary64 .positive (k <<< 53) (-53) .exact)).unpack := by
  have nonzero : k ≠ 0 := by omega
  have inside : ¬ (0 : Int) < -(2 ^ Format.binary64.exponentBits + k.log2) := by
    change ¬ (0 : Int) < -(2048 + k.log2)
    omega
  have rounded : UnpackedFloat.ofScientific .binary64 k 0
      = roundWithAccuracy .binary64 .positive (k <<< 53 * 1) (-53 + 0) .exact := by
    unfold UnpackedFloat.ofScientific
    rw [dif_neg nonzero, if_neg (by decide), if_neg inside, if_pos le_rfl]
    rfl
  rw [Nat.mul_one, Int.add_zero] at rounded
  unfold Float.ofScientific
  rw [dif_neg fun both => large both.1, ← rounded]
  rfl

theorem reaches_ofScientific {k : Nat} (positive : 0 < k) :
    Reaches 0 (parts (Float.ofScientific k false 0)) := by
  by_cases small : k < 2 ^ 53
  · have one : Reaches 0 (parts (Float.ofBits 0x3FF0000000000000)) :=
      Or.inr ⟨2 ^ 52, -52, by decide, rfl, ⟨by decide, by decide, Or.inl le_rfl⟩, by decide⟩
    have whole : k.toUInt64.toNat = k := by
      rw [Nat.toUInt64, UInt64.toNat_ofNat']
      omega
    rw [ofScientific_small small]
    exact reaches_mul (reaches_ofUInt64 _ (by omega)) one (by decide)
  · have bits : (k <<< 53).log2 = k.log2 + 53 := log2_shiftLeft positive 53
    have shifted : 0 < k <<< 53 := by
      rw [Nat.shiftLeft_eq]
      omega
    obtain ⟨m, e, positive', rounded, canonical, above⟩ :=
      round_canonical (e := -53) (t := 0) shifted (by omega) .positive (by omega) (by omega)
    rw [parts_ofScientific_large small, rounded]
    exact .pack canonical positive' above

theorem reaches_ofInt {k : Int} (positive : 1 ≤ k) : Reaches 0 (parts (Arith.ofInt k)) := by
  have sign : decide (k < 0) = false := decide_eq_false (by omega)
  have nonzero : ¬ ((k.natAbs == 0 || decide ((0 : Int) + (Nat.toDigits 10 k.natAbs).length < -330))
      = true) := by
    rw [Bool.or_eq_true, beq_iff_eq, decide_eq_true_eq]
    omega
  change Reaches 0 (parts ((Numeral.decimal (decide (k < 0)) k.natAbs 0).toFloat))
  rw [sign]
  change Reaches 0 (parts (if k.natAbs == 0 || _ then _ else _))
  rw [if_neg nonzero]
  split
  · exact Or.inl rfl
  · exact reaches_ofScientific (k := k.natAbs * 1) (by omega)

/-- A whole number from one on is positive as a double, also where it is beyond them. -/
theorem ofInt_pos {k : Int} (whole : 1 ≤ k) : Arith.lt 0 (Arith.ofInt k : Float) = true :=
  (pos_iff_reaches _).mpr ((reaches_ofInt whole).mono (by decide))

/-- The product of a whole number from one on with a positive double does not vanish. -/
theorem ofInt_mul_pos {k : Int} (whole : 1 ≤ k) {x : Float} (positive : Arith.lt 0 x = true) :
    Arith.lt 0 (Arith.ofInt k * x) = true := by
  rw [pos_iff_reaches] at positive ⊢
  have product := reaches_mul (reaches_ofInt whole) positive (by decide)
  rwa [zero_add] at product

end Double

end BoxQP
