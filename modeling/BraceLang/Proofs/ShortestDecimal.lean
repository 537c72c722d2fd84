import BraceLang.Number.Decimal
import Mathlib.Tactic.Ring

/-!
The shortest decimal of a number reads back as the number. The double that a decimal is rounded to
depends on the value of the decimal only, not on how it is divided into significand and exponent; a
quotient that is a double needs no rounding; and the decimals that are tried for a number are tested
for this, with the exact decimal behind them, which needs no test.
-/
namespace BraceLang

namespace Binary64

theorem roundHalfEven_mul_left {factor : Nat} (positive : 0 < factor)
    (numerator denominator : Nat) :
    roundHalfEven (factor * numerator) (factor * denominator) =
      roundHalfEven numerator denominator := by
  have twice : 2 * (factor * (numerator % denominator)) =
      factor * (2 * (numerator % denominator)) := Nat.mul_left_comm ..
  simp only [roundHalfEven, Nat.mul_div_mul_left _ _ positive, Nat.mul_mod_mul_left, twice,
    Nat.mul_lt_mul_left positive, Nat.mul_right_inj (Nat.ne_of_gt positive)]

theorem roundHalfEven_mul_cancel {denominator : Nat} (positive : 0 < denominator) (whole : Nat) :
    roundHalfEven (whole * denominator) denominator = whole := by
  have nonzero : denominator ≠ 0 := Nat.ne_of_gt positive
  simp [roundHalfEven, Nat.mul_div_cancel _ positive, nonzero]

/-- A quotient can be extended. -/
theorem ofQuotient_mul_left (negative : Bool) {factor : Nat} (positive : 0 < factor)
    (numerator denominator : Nat) :
    ofQuotient negative (factor * numerator) (factor * denominator) =
      ofQuotient negative numerator denominator := by
  simp only [ofQuotient, Nat.mul_assoc factor, Nat.mul_div_mul_left _ _ positive,
    roundHalfEven_mul_left positive]

/-- Equal quotients are rounded to the same number. -/
theorem ofQuotient_congr (negative : Bool) {numerator denominator numerator' denominator' : Nat}
    (positive : 0 < denominator) (positive' : 0 < denominator')
    (same : numerator * denominator' = numerator' * denominator) :
    ofQuotient negative numerator denominator = ofQuotient negative numerator' denominator' := by
  rw [← ofQuotient_mul_left negative positive' numerator, Nat.mul_comm denominator', same,
    Nat.mul_comm numerator', Nat.mul_comm denominator', ofQuotient_mul_left negative positive]

/-- The exponent of a canonical number is found again from its units. -/
theorem log2_of_canonical {significand exponent : Nat}
    (canonical : IsCanonical significand exponent) (nonzero : significand ≠ 0) :
    Nat.log2 (significand * Nat.pow 2 exponent) - 52 = exponent := by
  have positive : 0 < Nat.pow 2 exponent := Nat.pow_pos Nat.two_pos
  have units : significand * Nat.pow 2 exponent ≠ 0 :=
    Nat.mul_ne_zero nonzero (Nat.ne_of_gt positive)
  obtain ⟨below, -, normal | rfl⟩ := canonical
  · have isLog : Nat.log2 (significand * Nat.pow 2 exponent) = 52 + exponent := by
      rw [Nat.log2_eq_iff units, Nat.add_right_comm, Nat.pow_add, Nat.pow_add]
      exact ⟨Nat.mul_le_mul_right _ normal, Nat.mul_lt_mul_of_pos_right below positive⟩
    rw [isLog, Nat.add_sub_cancel_left]
  · have small : Nat.log2 (significand * Nat.pow 2 0) < 53 := by
      rw [Nat.log2_lt units]
      simpa using below
    omega

/-- The rounding of a quotient, with a name for the number of units in one. -/
theorem ofQuotient_eq {unit : Nat} (isUnit : unit = Nat.pow 2 1074) (negative : Bool)
    (numerator denominator : Nat) :
    ofQuotient negative numerator denominator =
      let exponent := Nat.log2 (numerator * unit / denominator) - 52
      let significand := roundHalfEven (numerator * unit) (denominator * Nat.pow 2 exponent)
      if significand = Nat.pow 2 53 then ofParts negative (Nat.pow 2 52) (exponent + 1)
      else ofParts negative significand exponent := by
  rw [isUnit]
  rfl

/-- A quotient that is a number is not rounded. -/
theorem ofQuotient_exact (negative : Bool) {unit significand exponent : Nat}
    (isUnit : unit = Nat.pow 2 1074) (positive : 0 < unit)
    (canonical : IsCanonical significand exponent) (nonzero : significand ≠ 0) :
    ofQuotient negative (significand * Nat.pow 2 exponent) unit =
      .finite negative significand exponent canonical := by
  have isExponent := log2_of_canonical canonical nonzero
  have below : significand ≠ Nat.pow 2 53 := Nat.ne_of_lt canonical.1
  have positive' : 0 < unit * Nat.pow 2 exponent := Nat.mul_pos positive (Nat.pow_pos Nat.two_pos)
  have whole : significand * Nat.pow 2 exponent * unit =
      significand * (unit * Nat.pow 2 exponent) := by ring
  rw [ofQuotient_eq isUnit, Nat.mul_div_cancel _ positive, isExponent, whole]
  simp only [roundHalfEven_mul_cancel positive', below, ↓reduceIte, ofParts, canonical,
    ↓reduceDIte]

/-- The number with the given sign and the magnitude of another one. -/
def withSign (negative : Bool) : Binary64 → Binary64
  | .nan => .nan
  | .infinity _ => .infinity negative
  | .finite _ significand exponent canonical => .finite negative significand exponent canonical

theorem withSign_ofParts (negative negative' : Bool) (significand exponent : Nat) :
    (ofParts negative' significand exponent).withSign negative =
      ofParts negative significand exponent := by
  unfold ofParts
  split <;> rfl

theorem withSign_ofQuotient (negative negative' : Bool) (numerator denominator : Nat) :
    (ofQuotient negative' numerator denominator).withSign negative =
      ofQuotient negative numerator denominator := by
  unfold ofQuotient
  dsimp only
  split <;> exact withSign_ofParts ..

end Binary64

namespace Decimal

theorem withSign_toBinary64 (negative negative' : Bool) (d : Decimal) :
    (d.toBinary64 negative').withSign negative = d.toBinary64 negative := by
  unfold toBinary64
  split
  · rfl
  split
  · rfl
  split
  · rfl
  split <;> exact Binary64.withSign_ofQuotient ..

/-- The value of a decimal as a quotient: the part above the line. -/
def numerator (d : Decimal) : Nat :=
  d.significand * Nat.pow 10 d.exponent.toNat

/-- The value of a decimal as a quotient: the part below the line. -/
def denominator (d : Decimal) : Nat :=
  Nat.pow 10 (-d.exponent).toNat

theorem denominator_pos (d : Decimal) : 0 < d.denominator :=
  Nat.pow_pos (by decide)

/-- A decimal that is neither too large nor too small is rounded as a quotient. -/
theorem toBinary64_eq_ofQuotient (negative : Bool) {d : Decimal} (nonzero : d.significand ≠ 0)
    (small : d.pointPosition ≤ 310) (large : -330 ≤ d.pointPosition) :
    d.toBinary64 negative = .ofQuotient negative d.numerator d.denominator := by
  obtain ⟨significand, exponent⟩ := d
  rw [toBinary64, if_neg nonzero, if_neg (Int.not_lt.mpr small), if_neg (Int.not_lt.mpr large)]
  cases exponent with
  | ofNat places =>
    have above : (-Int.ofNat places).toNat = 0 :=
      Int.toNat_of_nonpos (Int.neg_nonpos_of_nonneg (Int.natCast_nonneg places))
    rw [numerator, denominator, above]
    rfl
  | negSucc places => exact congrArg (Binary64.ofQuotient negative · _) (Nat.mul_one _).symm

/-- Decimals of one value and one place of the point are rounded to one number. -/
theorem toBinary64_congr (negative : Bool) {d d' : Decimal} (nonzero : d.significand ≠ 0)
    (nonzero' : d'.significand ≠ 0) (point : d.pointPosition = d'.pointPosition)
    (same : d.numerator * d'.denominator = d'.numerator * d.denominator) :
    d.toBinary64 negative = d'.toBinary64 negative := by
  by_cases large : 310 < d.pointPosition
  · have large' : 310 < d'.pointPosition := point ▸ large
    simp only [toBinary64, nonzero, nonzero', large, large', ↓reduceIte]
  by_cases small : d.pointPosition < -330
  · have small' : d'.pointPosition < -330 := point ▸ small
    have notLarge' : ¬310 < d'.pointPosition := point ▸ large
    simp only [toBinary64, nonzero, nonzero', large, notLarge', small, small', ↓reduceIte]
  · rw [Int.not_lt] at large small
    rw [toBinary64_eq_ofQuotient negative nonzero large small,
      toBinary64_eq_ofQuotient negative nonzero' (point ▸ large) (point ▸ small)]
    exact Binary64.ofQuotient_congr negative d.denominator_pos d'.denominator_pos same

/-- A number times a power of ten has zeros after its digits. -/
theorem toDigits_mul_pow {value : Nat} (positive : 0 < value) (places : Nat) :
    Nat.toDigits 10 (value * 10 ^ places) =
      Nat.toDigits 10 value ++ List.replicate places '0' := by
  induction places with
  | zero => simp
  | succ places ih =>
    have further : value * 10 ^ (places + 1) = 10 * (value * 10 ^ places) + 0 := by ring
    have digits := Nat.toDigits_append_toDigits (b := 10) (d := 0) (by decide)
      (Nat.mul_pos positive (Nat.pow_pos (n := places) (by decide : 0 < 10))) (by decide)
    rw [further, ← digits, ih, Nat.toDigits_zero, List.append_assoc, ← List.replicate_succ']

/-- Zeros at the end of a significand make no difference if the exponent allows for them. -/
theorem toBinary64_zeros (negative : Bool) (significand places : Nat) (exponent : Int) :
    toBinary64 negative ⟨significand * 10 ^ places, exponent - places⟩ =
      toBinary64 negative ⟨significand, exponent⟩ := by
  rcases Nat.eq_zero_or_pos significand with rfl | positive
  · simp [toBinary64]
  · have power : 0 < 10 ^ places := Nat.pow_pos (by decide)
    apply toBinary64_congr negative (Nat.ne_of_gt (Nat.mul_pos positive power))
      (Nat.ne_of_gt positive)
    · simp only [pointPosition, digits, toDigits_mul_pow positive, List.length_append,
        List.length_replicate]
      omega
    · have exponents : places + (exponent - places).toNat + (-exponent).toNat =
          exponent.toNat + (-(exponent - places)).toNat := by omega
      simp only [numerator, denominator, Nat.pow_eq, Nat.mul_assoc, ← Nat.pow_add, exponents]

/-- A number of halves of halves, as a decimal with as many places after the point. -/
theorem toBinary64_halves (negative : Bool) {units places least : Nat} (nonzero : units ≠ 0)
    (small : units * Nat.pow 5 places < Nat.pow 10 (places + 310))
    (large : Nat.pow 10 least ≤ units * Nat.pow 5 places) (near : places ≤ least + 331) :
    toBinary64 negative ⟨units * Nat.pow 5 places, -places⟩ =
      .ofQuotient negative units (Nat.pow 2 places) := by
  have nonzero' : units * Nat.pow 5 places ≠ 0 :=
    Nat.mul_ne_zero nonzero (Nat.ne_of_gt (Nat.pow_pos (by decide)))
  have few : (Nat.toDigits 10 (units * Nat.pow 5 places)).length ≤ places + 310 :=
    (Nat.length_toDigits_le_iff (by decide) (by omega)).mpr small
  have many : least < (Nat.toDigits 10 (units * Nat.pow 5 places)).length := by
    rcases Nat.eq_zero_or_pos least with rfl | positive
    · exact Nat.length_toDigits_pos
    · exact Nat.not_le.mp (mt (Nat.length_toDigits_le_iff (by decide) positive).mp
        (Nat.not_lt.mpr large))
  rw [toBinary64_eq_ofQuotient negative nonzero']
  · apply Binary64.ofQuotient_congr negative (denominator_pos _) (Nat.pow_pos Nat.two_pos)
    simp [numerator, denominator, Nat.mul_assoc, ← Nat.mul_pow]
  · simp only [pointPosition, digits]
    omega
  · simp only [pointPosition, digits]
    omega

/-- The exact decimal of a number reads back as the number. -/
theorem toBinary64_exact (negative : Bool) {significand exponent : Nat}
    (canonical : IsCanonical significand exponent) (nonzero : significand ≠ 0) :
    toBinary64 negative ⟨significand * Nat.pow 2 exponent * Nat.pow 5 1074, -1074⟩ =
      .finite negative significand exponent canonical := by
  have positive : 0 < significand * Nat.pow 2 exponent :=
    Nat.mul_pos (Nat.pos_of_ne_zero nonzero) (Nat.pow_pos Nat.two_pos)
  have atMost : ∀ {limit fives bound : Nat}, exponent ≤ limit →
      Nat.pow 2 53 * Nat.pow 2 limit * fives < bound →
      significand * Nat.pow 2 exponent * fives < bound := fun within below =>
    Nat.lt_of_le_of_lt (Nat.mul_le_mul_right _ (Nat.mul_le_mul (Nat.le_of_lt canonical.1)
      (Nat.pow_le_pow_right Nat.two_pos within))) below
  have atLeast : ∀ {fives bound : Nat}, bound ≤ fives →
      bound ≤ significand * Nat.pow 2 exponent * fives := fun above =>
    Nat.le_trans above (Nat.le_mul_of_pos_left _ positive)
  refine (@toBinary64_halves negative (significand * Nat.pow 2 exponent) 1074 743
    (Nat.ne_of_gt positive) ?_ ?_ (by decide)).trans ?_
  · exact atMost canonical.2.1 (by decide +kernel)
  · exact atLeast (by decide +kernel)
  · exact Binary64.ofQuotient_exact negative rfl (Nat.pow_pos Nat.two_pos) canonical nonzero

/-- What is tried for a number reads back as the number, and so does what stands behind it. -/
theorem toBinary64_shortest (tie : Halfway) (negative : Bool) {significand exponent : Nat}
    (canonical : IsCanonical significand exponent) (nonzero : significand ≠ 0) :
    (shortest tie significand exponent).toBinary64 negative =
      .finite negative significand exponent canonical := by
  unfold shortest
  dsimp only
  generalize isFound : List.find? _ _ = found
  cases found with
  | none => exact toBinary64_exact negative canonical nonzero
  | some d =>
    have reads : readsAs (.ofParts false significand exponent) d = true :=
      List.find?_some isFound
    unfold readsAs at reads
    rw [Option.getD_some, ← withSign_toBinary64 negative false, eq_of_beq reads,
      Binary64.withSign_ofParts, Binary64.ofParts, dif_pos canonical]

end Decimal

end BraceLang
