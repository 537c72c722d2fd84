import BraceLang.Number.Layout
import BraceLang.Proofs.ShortestDecimal
import BraceLang.Proofs.SourceGrammar

/-!
The texts of numbers. Every layout writes a finite double as a numeral: digits, perhaps a point with
digits, and perhaps an exponent, so that there is always one of the two. The decimal that a numeral
stands for has the value of the decimal that was to be written, and so the double is read again from
its text (`readBinary64?_finite`).
-/
namespace BraceLang

open Number

/-- The value of a run of digits, as the rest of a longer run goes on from it. -/
theorem ofDigits_append (first second : List Char) :
    ofDigits (first ++ second) = ofDigits first * 10 ^ second.length + ofDigits second := by
  rw [ofDigits, Nat.ofDigitChars_append, Nat.ofDigitChars_eq_ofDigitChars_zero, Nat.mul_comm]
  rfl

theorem ofDigits_toDigits (value : Nat) : ofDigits (Nat.toDigits 10 value) = value :=
  Nat.ofDigitChars_ten_toDigits

theorem ofDigits_zeros (places : Nat) : ofDigits (List.replicate places '0') = 0 := by
  rw [ofDigits, Nat.ofDigitChars_replicate_zero, Nat.mul_zero]

theorem isDigit_toDigits {value : Nat} : ∀ c ∈ Nat.toDigits 10 value, c.isDigit = true :=
  fun _ inside => Nat.isDigit_of_mem_toDigits (by decide) (by decide) inside

/-- Only the digits of zero start with a zero. -/
theorem head?_toDigits {value : Nat} (positive : 0 < value) :
    (Nat.toDigits 10 value).head? ≠ some '0' := by
  induction value using Nat.strongRecOn with
  | ind value ih =>
    by_cases single : value < 10
    · rw [Nat.toDigits_of_lt_base single, List.head?_cons, ne_eq, Option.some_inj,
        Nat.digitChar_eq_zero]
      exact Nat.ne_of_gt positive
    · have more : 10 ≤ value := Nat.not_lt.mp single
      obtain ⟨c, rest, shape⟩ :=
        List.exists_cons_of_ne_nil (Nat.toDigits_ne_nil (n := value / 10) (b := 10))
      have first := ih (value / 10) (by omega) (by omega)
      rw [shape] at first
      rw [Nat.toDigits_of_base_le (by decide) more, shape]
      exact first

/-- A number without a sign as it is written, in parts: the digits before the point; the digits
after it, without which there is no point; and the exponent, its sign apart. -/
structure Numeral where
  whole : List Char
  fraction : List Char
  exponent : Option (List Char × List Char)

namespace Numeral

/-- The point and the digits after it. -/
def fractionText (numeral : Numeral) : List Char :=
  if numeral.fraction = [] then [] else '.' :: numeral.fraction

/-- The letter of the exponent, and the exponent. -/
def exponentText (numeral : Numeral) : List Char :=
  match numeral.exponent with
  | none => []
  | some (sign, digits) => 'e' :: (sign ++ digits)

/-- All of a numeral. -/
def text (numeral : Numeral) : List Char :=
  numeral.whole ++ (numeral.fractionText ++ numeral.exponentText)

/-- The value of the exponent. -/
def exponentValue (numeral : Numeral) : Int :=
  match numeral.exponent with
  | none => 0
  | some (sign, digits) => if sign = ['-'] then -ofDigits digits else ofDigits digits

/-- The decimal that a numeral stands for. -/
def value (numeral : Numeral) : Decimal :=
  ⟨ofDigits (numeral.whole ++ numeral.fraction),
    numeral.exponentValue - numeral.fraction.length⟩

/-- Numerals in good form: digits where digits belong, some before the point, no zero in front of
other digits there, and some digits in an exponent. -/
structure WellFormed (numeral : Numeral) : Prop where
  nonempty : numeral.whole ≠ []
  whole : ∀ c ∈ numeral.whole, c.isDigit = true
  leading : numeral.whole.head? = some '0' → numeral.whole = ['0']
  fraction : ∀ c ∈ numeral.fraction, c.isDigit = true
  sign : ∀ {sign digits}, numeral.exponent = some (sign, digits) →
    sign = [] ∨ sign = ['-'] ∨ sign = ['+']
  exponent : ∀ {sign digits}, numeral.exponent = some (sign, digits) →
    digits ≠ [] ∧ ∀ c ∈ digits, c.isDigit = true

variable {numeral : Numeral}

/-- A numeral starts with a digit. -/
theorem WellFormed.starts (formed : numeral.WellFormed) :
    ∃ c more, numeral.text = c :: more ∧ c.isDigit = true := by
  obtain ⟨c, rest, shape⟩ := List.exists_cons_of_ne_nil formed.nonempty
  exact ⟨c, _, congrArg (· ++ _) shape, formed.whole c (shape ▸ List.mem_cons_self)⟩

/-- What holds of the digits and of the four other characters of numbers holds of all characters of
a numeral. -/
theorem WellFormed.forall_mem_text (formed : numeral.WellFormed) {p : Char → Prop}
    (digit : ∀ c, c.isDigit = true → p c) (others : ∀ c ∈ ['.', 'e', '-', '+'], p c) :
    ∀ c ∈ numeral.text, p c := by
  have fraction : ∀ c ∈ numeral.fractionText, p c := by
    unfold fractionText
    split
    · nofun
    · exact List.forall_mem_cons.mpr
        ⟨others '.' (by simp), fun c mem => digit c (formed.fraction c mem)⟩
  have exponent : ∀ c ∈ numeral.exponentText, p c := by
    unfold exponentText
    split
    · nofun
    · rename_i sign digits shape
      refine List.forall_mem_cons.mpr ⟨others 'e' (by simp), List.forall_mem_append.mpr ⟨?_, ?_⟩⟩
      · rcases formed.sign shape with rfl | rfl | rfl
        · nofun
        · exact List.forall_mem_singleton.mpr (others '-' (by simp))
        · exact List.forall_mem_singleton.mpr (others '+' (by simp))
      · exact fun c mem => digit c ((formed.exponent shape).2 c mem)
  refine List.forall_mem_append.mpr ⟨?_, List.forall_mem_append.mpr ⟨fraction, exponent⟩⟩
  exact fun c mem => digit c (formed.whole c mem)

/-- A numeral with a fraction or an exponent has a character that is no digit. -/
theorem exists_not_isDigit (pointed : numeral.fraction ≠ [] ∨ numeral.exponent ≠ none) :
    ∃ c ∈ numeral.text, c.isDigit = false := by
  rcases pointed with fraction | exponent
  · refine ⟨'.', ?_, rfl⟩
    simp [text, fractionText, fraction]
  · obtain ⟨⟨sign, digits⟩, shape⟩ := Option.ne_none_iff_exists'.mp exponent
    refine ⟨'e', ?_, rfl⟩
    simp [text, exponentText, shape]

theorem takeWhile_exponentText : numeral.exponentText.takeWhile Char.isDigit = [] := by
  unfold exponentText
  split <;> rfl

theorem dropWhile_exponentText :
    numeral.exponentText.dropWhile Char.isDigit = numeral.exponentText := by
  unfold exponentText
  split <;> rfl

theorem exponentText_ne_point {rest : List Char} : numeral.exponentText ≠ '.' :: rest := by
  unfold exponentText
  split <;> nofun

/-- The digits before the point are followed by no digit. -/
theorem takeWhile_text (formed : numeral.WellFormed) :
    numeral.text.takeWhile Char.isDigit = numeral.whole := by
  rw [text, List.takeWhile_append_of_pos formed.whole]
  unfold fractionText
  split
  · rw [List.nil_append, takeWhile_exponentText, List.append_nil]
  · exact List.append_nil _

theorem dropWhile_text (formed : numeral.WellFormed) :
    numeral.text.dropWhile Char.isDigit = numeral.fractionText ++ numeral.exponentText := by
  rw [text, List.dropWhile_append_of_pos formed.whole]
  unfold fractionText
  split
  · exact dropWhile_exponentText
  · rfl

/-- The digits after the point are followed by no digit. -/
theorem takeWhile_fraction (formed : numeral.WellFormed) :
    (numeral.fraction ++ numeral.exponentText).takeWhile Char.isDigit = numeral.fraction := by
  rw [List.takeWhile_append_of_pos formed.fraction, takeWhile_exponentText, List.append_nil]

theorem dropWhile_fraction (formed : numeral.WellFormed) :
    (numeral.fraction ++ numeral.exponentText).dropWhile Char.isDigit = numeral.exponentText := by
  rw [List.dropWhile_append_of_pos formed.fraction, dropWhile_exponentText]

theorem splitSign_digits {digits : List Char} (nonempty : digits ≠ [])
    (all : ∀ c ∈ digits, c.isDigit = true) : splitSign digits = (false, digits) := by
  obtain ⟨c, rest, rfl⟩ := List.exists_cons_of_ne_nil nonempty
  exact splitSign_of_isDigit (all c List.mem_cons_self)

theorem readExponent?_exponentText (formed : numeral.WellFormed) :
    readExponent? numeral.exponentText = some numeral.exponentValue := by
  unfold exponentText exponentValue
  cases shape : numeral.exponent with
  | none => rfl
  | some exponent =>
    obtain ⟨sign, digits⟩ := exponent
    obtain ⟨nonempty, all⟩ := formed.exponent shape
    have accepted : (digits.isEmpty || !digits.all Char.isDigit) = false := by
      simpa [nonempty] using all
    have split : splitSign (sign ++ digits) = (decide (sign = ['-']), digits) := by
      rcases formed.sign shape with rfl | rfl | rfl
      · exact splitSign_digits nonempty all
      · rfl
      · rfl
    simp only [readExponent?, split, accepted]
    by_cases minus : sign = ['-'] <;> simp [minus]

/-- A numeral is read as the decimal that it stands for. -/
theorem readDecimal?_text (formed : numeral.WellFormed) :
    readDecimal? numeral.text = some numeral.value := by
  have reads := readExponent?_exponentText formed
  have nonempty : numeral.whole.isEmpty = false := by simpa using formed.nonempty
  unfold readDecimal?
  rw [takeWhile_text formed, dropWhile_text formed]
  unfold fractionText
  by_cases noFraction : numeral.fraction = []
  · rw [if_pos noFraction, List.nil_append]
    split
    rename_i fraction rest parts
    split at parts
    · exact absurd ‹_› exponentText_ne_point
    · obtain ⟨rfl, rfl⟩ := Prod.mk.inj parts
      simp only [nonempty, Bool.false_and, reads, value, noFraction, List.append_nil]
      rfl
  · rw [if_neg noFraction, List.cons_append]
    simp only [takeWhile_fraction formed, dropWhile_fraction formed, nonempty, Bool.false_and,
      reads, value]
    rfl

end Numeral

/-! ## Every layout writes a numeral of the same value -/

theorem Decimal.ofDigits_digits (d : Decimal) : ofDigits d.digits = d.significand :=
  ofDigits_toDigits d.significand

theorem Decimal.isDigit_digits (d : Decimal) : ∀ c ∈ d.digits, c.isDigit = true :=
  isDigit_toDigits

theorem Decimal.length_digits_pos (d : Decimal) : 0 < d.digits.length :=
  Nat.length_toDigits_pos

namespace DecimalLayout

variable (layout : DecimalLayout) {d : Decimal}

/-- The numeral of digits around a point. -/
def positionalNumeral (digits : List Char) (point : Int) : Numeral :=
  if point ≤ 0 then ⟨['0'], List.replicate (-point).toNat '0' ++ digits, none⟩
  else if point < digits.length then ⟨digits.take point.toNat, digits.drop point.toNat, none⟩
  else ⟨digits ++ List.replicate (point.toNat - digits.length) '0', ['0'], none⟩

/-- The numeral of digits with an exponent. -/
def scientificNumeral (digits : List Char) (point : Int) : Numeral where
  whole := digits.take 1
  fraction := digits.drop 1
  exponent :=
    let exponent := point - 1
    some (if exponent < 0 then ['-'] else if layout.signedExponent then ['+'] else [],
      Nat.toDigits 10 exponent.natAbs)

/-- The numeral for a decimal in a layout. -/
def numeral (d : Decimal) : Numeral :=
  let point := d.pointPosition
  if layout.firstPoint ≤ point ∧ point ≤ layout.lastPoint then positionalNumeral d.digits point
  else layout.scientificNumeral d.digits point

theorem positional_eq_text {digits : List Char} (nonempty : 0 < digits.length) (point : Int) :
    positional digits point = (positionalNumeral digits point).text := by
  unfold positional positionalNumeral
  split
  · have fraction : List.replicate (-point).toNat '0' ++ digits ≠ [] := by
      simpa using fun _ => List.ne_nil_of_length_pos nonempty
    simp [Numeral.text, Numeral.fractionText, Numeral.exponentText, fraction]
  split
  · have fraction : digits.drop point.toNat ≠ [] := by
      rw [ne_eq, List.drop_eq_nil_iff]
      omega
    simp [Numeral.text, Numeral.fractionText, Numeral.exponentText, fraction]
  · simp [Numeral.text, Numeral.fractionText, Numeral.exponentText]

theorem scientific_eq_text (digits : List Char) (point : Int) :
    layout.scientific digits point = (layout.scientificNumeral digits point).text := by
  unfold scientific scientificNumeral Numeral.text Numeral.fractionText Numeral.exponentText
  by_cases single : digits.length ≤ 1
  · have none : digits.drop 1 = [] := List.drop_eq_nil_of_le single
    simp [single, none]
  · have some : digits.drop 1 ≠ [] := mt List.drop_eq_nil_iff.mp single
    simp only [single, some, ↓reduceIte, List.append_assoc, List.cons_append, List.nil_append]

theorem decimal_eq_text (d : Decimal) : layout.decimal d = (layout.numeral d).text := by
  unfold decimal numeral
  dsimp only
  split
  · exact positional_eq_text d.length_digits_pos _
  · exact layout.scientific_eq_text _ _

theorem wellFormed_numeral (nonzero : d.significand ≠ 0) : (layout.numeral d).WellFormed := by
  have nonempty : d.digits ≠ [] := List.ne_nil_of_length_pos d.length_digits_pos
  have leading : d.digits.head? ≠ some '0' := head?_toDigits (Nat.pos_of_ne_zero nonzero)
  have digits := d.isDigit_digits
  have zeros : ∀ {places c}, c ∈ List.replicate places '0' → c.isDigit = true := by
    intro places c mem
    rw [List.eq_of_mem_replicate mem]
    rfl
  unfold numeral
  dsimp only
  split
  · unfold positionalNumeral
    split
    · refine ⟨nofun, by simp, fun _ => rfl, ?_, nofun, nofun⟩
      exact fun c mem => (List.mem_append.mp mem).elim zeros (digits c)
    split
    · have further : d.pointPosition.toNat ≠ 0 := by omega
      refine ⟨by simp [nonempty, further], fun c mem => digits c (List.mem_of_mem_take mem), ?_,
        fun c mem => digits c (List.mem_of_mem_drop mem), nofun, nofun⟩
      intro first
      rw [List.head?_take, if_neg further] at first
      exact absurd first leading
    · refine ⟨List.append_ne_nil_of_left_ne_nil nonempty _, ?_, ?_, by simp, nofun, nofun⟩
      · exact fun c mem => (List.mem_append.mp mem).elim (digits c) zeros
      · intro first
        rw [List.head?_append, Option.or_eq_some_iff] at first
        rcases first with first | ⟨none, -⟩
        · exact absurd first leading
        · exact absurd (List.head?_eq_none_iff.mp none) nonempty
  · refine ⟨by simp [scientificNumeral, nonempty], fun c mem => digits c (List.mem_of_mem_take mem),
      ?_, fun c mem => digits c (List.mem_of_mem_drop mem), ?_, ?_⟩
    · intro first
      rw [scientificNumeral, List.head?_take, if_neg Nat.one_ne_zero] at first
      exact absurd first leading
    · rintro sign digits ⟨⟩
      split
      · exact .inr (.inl rfl)
      · split
        · exact .inr (.inr rfl)
        · exact .inl rfl
    · rintro sign digits ⟨⟩
      exact ⟨Nat.toDigits_ne_nil, isDigit_toDigits⟩

/-- A decimal is written with a point or with an exponent. -/
theorem numeral_pointed (d : Decimal) :
    (layout.numeral d).fraction ≠ [] ∨ (layout.numeral d).exponent ≠ none := by
  have nonempty : d.digits ≠ [] := List.ne_nil_of_length_pos d.length_digits_pos
  unfold numeral
  dsimp only
  split
  · left
    unfold positionalNumeral
    split
    · exact List.append_ne_nil_of_right_ne_nil _ nonempty
    split
    · rw [ne_eq, List.drop_eq_nil_iff]
      omega
    · exact List.cons_ne_nil _ _
  · exact .inr nofun

/-- Around a point the digits have the value of the decimal. -/
theorem toBinary64_positional (negative : Bool) (d : Decimal) :
    (positionalNumeral d.digits d.pointPosition).value.toBinary64 negative =
      d.toBinary64 negative := by
  have length := d.length_digits_pos
  have point : d.pointPosition = d.digits.length + d.exponent := rfl
  unfold positionalNumeral Numeral.value Numeral.exponentValue
  split
  · -- the zeros after the point are as many as the exponent and the digits leave
    have significand :
        ofDigits (['0'] ++ (List.replicate (-d.pointPosition).toNat '0' ++ d.digits)) =
          d.significand := by
      have zero : ofDigits ['0'] = 0 := rfl
      rw [ofDigits_append, ofDigits_append, ofDigits_zeros, d.ofDigits_digits, zero]
      simp only [Nat.zero_mul, Nat.zero_add]
    have exponent : (0 : Int) - (List.replicate (-d.pointPosition).toNat '0' ++ d.digits).length =
        d.exponent := by
      rw [List.length_append, List.length_replicate]
      omega
    simp only [significand, exponent]
  split
  · have exponent : (0 : Int) - (d.digits.drop d.pointPosition.toNat).length = d.exponent := by
      rw [List.length_drop]
      omega
    simp only [List.take_append_drop, d.ofDigits_digits, exponent]
  · -- there are more places before the point than digits, and one zero after it
    have zeros : List.replicate (d.pointPosition.toNat - d.digits.length) '0' ++ ['0'] =
        List.replicate (d.exponent.toNat + 1) '0' := by
      rw [← List.replicate_succ']
      congr 2
      omega
    have significand : ofDigits (d.digits ++
        List.replicate (d.pointPosition.toNat - d.digits.length) '0' ++ ['0']) =
          d.significand * 10 ^ (d.exponent.toNat + 1) := by
      rw [List.append_assoc, zeros, ofDigits_append, ofDigits_zeros, d.ofDigits_digits,
        List.length_replicate, Nat.add_zero]
    have exponent : (0 : Int) - (['0'] : List Char).length =
        d.exponent - (d.exponent.toNat + 1 : Nat) := by
      rw [List.length_singleton]
      omega
    simp only [significand, exponent]
    exact Decimal.toBinary64_zeros negative _ _ _

/-- With an exponent the digits make up the decimal itself. -/
theorem value_scientific (d : Decimal) :
    (layout.scientificNumeral d.digits d.pointPosition).value = d := by
  have length := d.length_digits_pos
  have point : d.pointPosition = d.digits.length + d.exponent := rfl
  have exponent : (layout.scientificNumeral d.digits d.pointPosition).exponentValue =
      d.pointPosition - 1 := by
    simp only [Numeral.exponentValue, scientificNumeral, ofDigits_toDigits]
    by_cases minus : d.pointPosition - 1 < 0
    · rw [if_pos minus, if_pos rfl]
      omega
    · have notMinus : (if layout.signedExponent then ['+'] else []) ≠ ['-'] := by
        split <;> simp
      rw [if_neg minus, if_neg notMinus]
      omega
  unfold Numeral.value
  rw [exponent]
  simp only [scientificNumeral, List.take_append_drop, d.ofDigits_digits, List.length_drop]
  congr
  omega

/-- What is written has the value of the decimal. -/
theorem toBinary64_numeral (negative : Bool) (d : Decimal) :
    (layout.numeral d).value.toBinary64 negative = d.toBinary64 negative := by
  unfold numeral
  dsimp only
  split
  · exact toBinary64_positional negative d
  · rw [value_scientific]

/-- The numeral for the magnitude of a finite number. -/
def finiteNumeral (significand exponent : Nat) : Numeral :=
  if significand = 0 then ⟨['0'], ['0'], none⟩
  else layout.numeral (.shortest layout.halfway significand exponent)

theorem finite_eq_text (negative : Bool) (significand exponent : Nat) :
    layout.finite negative significand exponent =
      (if negative then ['-'] else []) ++ (layout.finiteNumeral significand exponent).text := by
  unfold finite finiteNumeral
  dsimp only
  split
  · rfl
  · rw [decimal_eq_text]

variable {significand exponent : Nat}

/-- The shortest decimal of a number other than zero is not zero. -/
theorem shortest_ne_zero (tie : Halfway) (canonical : IsCanonical significand exponent)
    (nonzero : significand ≠ 0) : (Decimal.shortest tie significand exponent).significand ≠ 0 := by
  intro zero
  have reads := Decimal.toBinary64_shortest tie false canonical nonzero
  rw [Decimal.toBinary64, if_pos zero, Binary64.zero] at reads
  cases reads
  exact nonzero rfl

theorem wellFormed_finiteNumeral (canonical : IsCanonical significand exponent) :
    (layout.finiteNumeral significand exponent).WellFormed := by
  unfold finiteNumeral
  split
  · exact ⟨nofun, by simp, fun _ => rfl, by simp, nofun, nofun⟩
  · exact layout.wellFormed_numeral (shortest_ne_zero _ canonical ‹_›)

theorem finiteNumeral_pointed (significand exponent : Nat) :
    (layout.finiteNumeral significand exponent).fraction ≠ [] ∨
      (layout.finiteNumeral significand exponent).exponent ≠ none := by
  unfold finiteNumeral
  split
  · exact .inl nofun
  · exact layout.numeral_pointed _

/-- A finite number is read from its text, in every layout. -/
theorem readBinary64?_finite (negative : Bool) (canonical : IsCanonical significand exponent) :
    readBinary64? (layout.finite negative significand exponent) =
      some (.finite negative significand exponent canonical) := by
  have formed := layout.wellFormed_finiteNumeral canonical
  have magnitude : (layout.finiteNumeral significand exponent).value.toBinary64 negative =
      .finite negative significand exponent canonical := by
    unfold finiteNumeral
    split
    · rename_i zero
      obtain ⟨-, -, normal | rfl⟩ := canonical
      · exact absurd normal (by rw [zero]; decide)
      · subst zero
        rfl
    · rw [toBinary64_numeral, Decimal.toBinary64_shortest _ _ canonical ‹_›]
  have split : splitSign (layout.finite negative significand exponent) =
      (negative, (layout.finiteNumeral significand exponent).text) := by
    rw [finite_eq_text]
    cases negative with
    | true => rfl
    | false =>
      obtain ⟨c, more, shape, digit⟩ := formed.starts
      rw [shape]
      exact splitSign_of_isDigit digit
  simp only [readBinary64?, split, Numeral.readDecimal?_text formed, magnitude]

/-- No two finite numbers have one text. -/
theorem finite_injective {negative negative' : Bool} {significand' exponent' : Nat}
    (canonical : IsCanonical significand exponent)
    (canonical' : IsCanonical significand' exponent')
    (same : layout.finite negative significand exponent =
      layout.finite negative' significand' exponent') :
    Binary64.finite negative significand exponent canonical =
      .finite negative' significand' exponent' canonical' := by
  have reads := layout.readBinary64?_finite negative canonical
  rw [same, layout.readBinary64?_finite negative' canonical'] at reads
  exact (Option.some.inj reads).symm

end DecimalLayout

end BraceLang
