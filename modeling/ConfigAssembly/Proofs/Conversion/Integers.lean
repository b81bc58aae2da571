import ConfigAssembly.Proofs.Number.DecimalNumeral
import ConfigAssembly.Proofs.Conversion.Soundness

/-!
# Conversion of numerals to integers

A plain numeral is converted to the integer that it denotes. Any other decimal numeral is converted
by way of the floating-point number nearest to its value, and what comes of it is what comes of that
number: an integer if the number is one (`Converters.convert_text`). So the conversion is exact just
if the numeral is plain, or rounding does not change the value, or neither the value nor the rounded
value is an integer; that is so for integers up to `2 ^ 53`, and for values that are away from every
integer by more than a part in `2 ^ 53` of themselves, but it is not so for fractions from `2 ^ 52`
on (`Converters.convert_numeral`).
-/

namespace ConfigAssembly.Converters

open ConfigAssembly.Numeral

/-- What an exact conversion makes of a text that denotes a rational number: the integer that this
is, or a failure. -/
def exactInteger (text : String) (q : ℚ) : Except ConversionFailure Value :=
  if q.den = 1 then .ok (.int q.num)
  else .error (.conversion ⟨text, .basic .int, .notInteger text⟩)

/-- Two rational numbers come to the same if they are the same or both are no integers. -/
theorem exactInteger_eq_iff (text : String) (p q : ℚ) :
    exactInteger text p = exactInteger text q ↔ p = q ∨ q.den ≠ 1 ∧ p.den ≠ 1 := by
  unfold exactInteger
  by_cases hp : p.den = 1 <;> by_cases hq : q.den = 1
  · have hnum : p.num = q.num ↔ p = q :=
      ⟨fun h => Rat.ext h (hp.trans hq.symm), fun h => by rw [h]⟩
    simp [hp, hq, hnum]
  · have hne : p ≠ q := by
      rintro rfl
      exact hq hp
    simp [hp, hq, hne]
  · have hne : p ≠ q := by
      rintro rfl
      exact hp hq
    simp [hp, hq, hne]
  · simp [hp, hq]

variable {w : DecimalNumeral} {x : Binary64}

/-- A numeral is converted as its value is if it is plain, else as the number is that it is read
to. -/
theorem convert_text (hlength : w.text.length ≤ longestDecimal)
    (hread : readFloat? w.text = some x) (hnumber : x.IsNumber) :
    standard.convert (.basic .int) w.text =
      exactInteger w.text (if w.IsPlain then w.value else x.toRat) := by
  rw [convert_int, Converter.integer, w.readInteger_text hlength]
  by_cases hplain : w.IsPlain
  · rw [if_pos hplain, if_pos hplain, exactInteger, if_pos (w.den_value_of_isPlain hplain)]
  · rw [if_neg hplain, if_neg hplain, hread, exactInteger]
    dsimp only
    rw [Binary64.toInt?_eq hnumber]
    by_cases hint : x.toRat.den = 1
    · rw [if_pos hint, if_pos hint]
    · rw [if_neg hint, if_neg hint]
      rfl

/-- A whole number is read as an integer. -/
theorem exists_exactInteger_eq {q : ℚ} (hint : q.den = 1) (text : String) :
    ∃ i, exactInteger text q = .ok (.int i) :=
  ⟨q.num, if_pos hint⟩

/-- A decimal numeral of a number below `10 ^ 300` is converted as its value is if it is plain, else
as the floating-point number is that is nearest to its value. That is exact just if the numeral is
plain, or the value is such a number, or neither the one nor the other is an integer. So it is exact
for integers up to `2 ^ 53`, and what is away from every integer by more than a part in `2 ^ 53` of
itself is refused; but from `2 ^ 52` on nothing is refused. -/
theorem convert_numeral (w : DecimalNumeral) (hlength : w.text.length ≤ 4300)
    (hvalue : |w.value| < 10 ^ 300) :
    ∃ x : Binary64, x.IsNearest w.value ∧
      standard.convert (.basic .int) w.text =
        exactInteger w.text (if w.IsPlain then w.value else x.toRat) ∧
      (standard.convert (.basic .int) w.text = exactInteger w.text w.value ↔
        w.IsPlain ∨ x.toRat = w.value ∨ w.value.den ≠ 1 ∧ x.toRat.den ≠ 1) ∧
      (w.value.den = 1 → |w.value| ≤ 2 ^ 53 →
        standard.convert (.basic .int) w.text = exactInteger w.text w.value) ∧
      (2 ^ (-1022 : ℤ) ≤ |w.value| → (∀ i : ℤ, |w.value| < 2 ^ 53 * |w.value - i|) →
        standard.convert (.basic .int) w.text = exactInteger w.text w.value) ∧
      (2 ^ 52 ≤ |w.value| → ∃ i, standard.convert (.basic .int) w.text = .ok (.int i)) := by
  obtain ⟨x, hread, hnearest⟩ := w.readFloat?_text hvalue
  have hconvert := convert_text hlength hread hnearest.isNumber
  have hexact : standard.convert (.basic .int) w.text = exactInteger w.text w.value ↔
      w.IsPlain ∨ x.toRat = w.value ∨ w.value.den ≠ 1 ∧ x.toRat.den ≠ 1 := by
    rw [hconvert]
    by_cases hplain : w.IsPlain
    · simp [hplain]
    · simp [hplain, exactInteger_eq_iff]
  refine ⟨x, hnearest, hconvert, hexact, fun hint hle => ?_, fun hnormal haway => ?_,
    fun hlarge => ?_⟩
  · exact hexact.2 (.inr (.inl
      (hnearest.toRat_eq (Binary64.representable_of_den_eq_one hint hle))))
  · refine hexact.2 (.inr (.inr ⟨fun hint => ?_, ?_⟩))
    · have hself := haway w.value.num
      rw [Rat.coe_int_num_of_den_eq_one hint, sub_self, abs_zero, mul_zero] at hself
      exact absurd hself (not_lt.2 (abs_nonneg _))
    · exact hnearest.den_ne_one hnormal (hvalue.trans ten_pow_lt) haway
  · rw [hconvert]
    by_cases hplain : w.IsPlain
    · rw [if_pos hplain]
      exact exists_exactInteger_eq (w.den_value_of_isPlain hplain) _
    · rw [if_neg hplain]
      exact exists_exactInteger_eq (hnearest.den_eq_one hlarge) _

/-- A digit in ASCII. -/
private def asciiDigit (v : Fin 10) : Digit where
  char := Char.ofNat (48 + v)
  value := v
  decimalValue?_char := by
    revert v
    decide

/-- An integer with a fraction and an exponent. -/
private def shiftedNumeral : DecimalNumeral where
  sign := some .minus
  whole := [1, 2].map asciiDigit
  whole_ne_nil := by simp
  fraction := some [asciiDigit 5]
  exponent := some ⟨false, none, [asciiDigit 1], by simp⟩

/-- An integer is read from a numeral whose exponent takes the fraction away. -/
theorem convert_numeral_shifted :
    shiftedNumeral.text = "-12.5e1" ∧ shiftedNumeral.text.length ≤ 4300 ∧
      |shiftedNumeral.value| < 10 ^ 300 ∧
      standard.convert (.basic .int) "-12.5e1" = .ok (.int (-125)) := by
  have htext : shiftedNumeral.text = "-12.5e1" := by decide +kernel
  have hlength : shiftedNumeral.text.length ≤ 4300 := by
    rw [htext]
    decide
  have hvalue : shiftedNumeral.value = -125 := by
    have hnumber : Digit.number shiftedNumeral.digits = 125 := by decide +kernel
    have hexponent : shiftedNumeral.exponentValue - shiftedNumeral.fractionDigits.length = 0 := by
      decide +kernel
    rw [DecimalNumeral.value, DecimalNumeral.scaled, hnumber, hexponent, zpow_zero, mul_one]
    rfl
  have habs : |shiftedNumeral.value| = 125 := by rw [hvalue]; norm_num
  have hlimit : |shiftedNumeral.value| < 10 ^ 300 := by
    rw [habs]
    exact (by norm_num : (125 : ℚ) < 10 ^ 3).trans_le
      (pow_le_pow_right₀ (by norm_num) (by norm_num))
  obtain ⟨x, _, _, _, hexact, _⟩ := convert_numeral shiftedNumeral hlength hlimit
  refine ⟨htext, hlength, hlimit, ?_⟩
  rw [← htext, hexact (by rw [hvalue]; rfl) (by rw [habs]; norm_num), hvalue]
  rfl

/-- A half beyond `2 ^ 52`. -/
private def halvedNumeral : DecimalNumeral where
  sign := none
  whole := [4, 5, 0, 3, 5, 9, 9, 6, 2, 7, 3, 7, 0, 4, 9, 6].map asciiDigit
  whole_ne_nil := by simp
  fraction := some [asciiDigit 5]
  exponent := none

/-- A fraction is not always refused. -/
theorem not_forall_convert_numeral :
    ¬ ∀ w : DecimalNumeral, w.text.length ≤ 4300 → |w.value| < 10 ^ 300 →
      standard.convert (.basic .int) w.text = exactInteger w.text w.value := by
  intro hall
  have htext : halvedNumeral.text = "4503599627370496.5" := by decide +kernel
  have hvalue : halvedNumeral.value = 45035996273704965 * 10 ^ (-1 : ℤ) := by
    have hnumber : Digit.number halvedNumeral.digits = 45035996273704965 := by decide +kernel
    have hexponent : halvedNumeral.exponentValue - halvedNumeral.fractionDigits.length = -1 := by
      decide +kernel
    rw [DecimalNumeral.value, DecimalNumeral.scaled, hnumber, hexponent]
    rfl
  have hhalf : halvedNumeral.value = 9007199254740993 / 2 := by
    rw [hvalue]
    norm_num
  have hconvert : standard.convert (.basic .int) halvedNumeral.text =
      .ok (.int 4503599627370496) := by
    rw [htext]
    rfl
  have hden : halvedNumeral.value.den ≠ 1 := by
    rw [hhalf]
    decide +kernel
  have hlimit : |halvedNumeral.value| < 10 ^ 300 := by
    rw [hhalf]
    exact (by norm_num : |(9007199254740993 / 2 : ℚ)| < 10 ^ 20).trans_le
      (pow_le_pow_right₀ (by norm_num) (by norm_num))
  rw [hall halvedNumeral (by rw [htext]; decide) hlimit, exactInteger, if_neg hden] at hconvert
  contradiction

end ConfigAssembly.Converters
