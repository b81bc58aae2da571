import Mathlib.Data.Nat.Digits.Defs
import ConfigAssembly.Proofs.Number.Decimal
import ConfigAssembly.Proofs.Number.Rounding

/-!
# Decimal numerals are read

A `DecimalNumeral` is a number as it is written: digits of any script, after a sign and before a
fraction and an exponent if these are given. Its value is a rational number. With its digits in
ASCII (`plainForm_text`) the numeral falls into its parts again. So it is read as an integer if it
is plain, without fraction, exponent and idle zeros (`readInteger_text`). As a floating-point number
it is read to the one that is nearest to its value (`readFloat?_text`): an exponent that is not told
from larger ones belongs to zero or to a number that is rounded to zero.
-/

namespace ConfigAssembly

open ConfigAssembly.Text ConfigAssembly.Numeral

/-! ### Numerals and their values -/

/-- A decimal digit of any script. -/
structure Digit where
  char : Char
  value : ℕ
  decimalValue?_char : decimalValue? char = some value

/-- A sign that is written. -/
inductive Sign where
  | plus
  | minus
  deriving DecidableEq

/-- The character of a sign, if one is written. -/
def Sign.chars : Option Sign → List Char
  | none => []
  | some .plus => ['+']
  | some .minus => ['-']

/-- The number that digits denote. -/
def Digit.number (ds : List Digit) : ℕ := Nat.ofDigits 10 (ds.map Digit.value).reverse

/-- The exponent of a numeral: a mark, which is a letter of either case, a sign and digits. -/
structure ExponentPart where
  capital : Bool
  sign : Option Sign
  digits : List Digit
  digits_ne_nil : digits ≠ []

/-- A number in decimal notation. -/
structure DecimalNumeral where
  sign : Option Sign
  whole : List Digit
  whole_ne_nil : whole ≠ []
  fraction : Option (List Digit)
  exponent : Option ExponentPart

/-- The exponent that is denoted. -/
def ExponentPart.value (e : ExponentPart) : ℤ :=
  if e.sign = some .minus then -Digit.number e.digits else Digit.number e.digits

/-- The characters of an exponent, with digits as given. -/
def ExponentPart.chars (digit : Digit → Char) (e : ExponentPart) : List Char :=
  (if e.capital then 'E' else 'e') :: (Sign.chars e.sign ++ e.digits.map digit)

namespace DecimalNumeral

variable (w : DecimalNumeral)

/-- The digits after the point. -/
def fractionDigits : List Digit := w.fraction.getD []

/-- All digits before the exponent. -/
def digits : List Digit := w.whole ++ w.fractionDigits

/-- The exponent that is written, or zero. -/
def exponentValue : ℤ := w.exponent.elim 0 ExponentPart.value

/-- Whether a minus is written. -/
def negative : Bool := w.sign = some .minus

/-- The rational number that the digits denote with an exponent. -/
def scaled (e : ℤ) : ℚ := Digit.number w.digits * 10 ^ (e - w.fractionDigits.length)

/-- The rational number that a numeral denotes. -/
def value : ℚ := Binary64.withSign w.negative (w.scaled w.exponentValue)

/-- The characters of the exponent, if one is written. -/
def exponentChars (digit : Digit → Char) : List Char :=
  w.exponent.elim [] (ExponentPart.chars digit)

/-- What follows the digits before the point, with digits as given. -/
def tail (digit : Digit → Char) : List Char :=
  (w.fraction.elim [] fun ds => '.' :: ds.map digit) ++ w.exponentChars digit

/-- The characters of a numeral, with digits as given. -/
def chars (digit : Digit → Char) : List Char :=
  Sign.chars w.sign ++ (w.whole.map digit ++ w.tail digit)

/-- The text of a numeral. -/
def text : String := String.ofList (w.chars Digit.char)

/-- No fraction and no exponent are written, and no zero before other digits than zeros. -/
def IsPlain : Prop :=
  w.fraction = none ∧ w.exponent = none ∧
    ((w.whole.map Digit.value).head? = some 0 → Digit.number w.whole = 0)

instance : Decidable w.IsPlain := inferInstanceAs (Decidable (_ ∧ _ ∧ (_ → _)))

end DecimalNumeral

/-! ### Digits in ASCII -/

namespace Digit

variable (d : Digit)

/-- The digit in ASCII. -/
def ascii : Char := Char.ofNat (48 + d.value)

/-- A digit is less than ten places behind a zero. -/
theorem exists_zeroDigit : ∃ z ∈ zeroDigits, d.char.toNat = z + d.value ∧ d.value < 10 := by
  have hvalue := d.decimalValue?_char
  rw [decimalValue?, Option.map_eq_some_iff] at hvalue
  obtain ⟨z, hz, hsub⟩ := hvalue
  have hbetween := List.find?_some hz
  simp only [Bool.and_eq_true, decide_eq_true_eq] at hbetween
  exact ⟨z, List.mem_of_find?_eq_some hz, by omega, by omega⟩

/-- Its value is less than ten. -/
theorem value_lt : d.value < 10 := by
  obtain ⟨_, _, _, hlt⟩ := d.exists_zeroDigit
  exact hlt

/-- The code of the plain digit of the same value. -/
theorem toNat_ascii : d.ascii.toNat = 48 + d.value := by
  have htable : ∀ k < 10, (Char.ofNat (48 + k)).toNat = 48 + k := by decide
  exact htable d.value d.value_lt

/-- It is one of the ten plain digits. -/
theorem isDigit_ascii : d.ascii.isDigit = true := by
  have hlt := d.value_lt
  have hbetween : 48 ≤ d.ascii.toNat ∧ d.ascii.toNat ≤ 57 := by
    rw [toNat_ascii]
    omega
  rw [Char.isDigit, Bool.and_eq_true, decide_eq_true_eq, decide_eq_true_eq]
  exact hbetween

/-- It is the plain zero if its value is zero. -/
theorem ascii_eq_zero_iff : d.ascii = '0' ↔ d.value = 0 := by
  constructor
  · intro h
    have hcode := d.toNat_ascii
    rw [h] at hcode
    have hzero : ('0' : Char).toNat = 48 := rfl
    omega
  · intro h
    rw [ascii, h]

/-- A digit of any script becomes the one of its value in ASCII. -/
theorem plainChar_char : plainChar d.char = d.ascii := by
  obtain ⟨z, hz, hchar, hlt⟩ := d.exists_zeroDigit
  have htable : ∀ z ∈ zeroDigits, z = 48 ∨
      127 ≤ z ∧ ∀ k < 10, blankBoundaries.covers (z + k) = false := by decide +kernel
  rcases htable z hz with rfl | ⟨hlarge, hblank⟩
  · rw [plainChar_of_lt (by omega), ascii, ← hchar, Char.ofNat_toNat]
  · have hnotBlank : isBlank d.char = false := by
      rw [isBlank, hchar]
      exact hblank d.value hlt
    rw [plainChar, if_neg (by omega), hnotBlank, if_neg (by decide), d.decimalValue?_char]
    rfl

/-- It has no lower case. -/
theorem toLower_ascii : d.ascii.toLower = d.ascii := by
  have htable : ∀ k < 10, (Char.ofNat (48 + k)).toLower = Char.ofNat (48 + k) := by decide
  exact htable d.value d.value_lt

/-- So it is with each of several. -/
theorem isDigit_of_mem_map {ds : List Digit} {c : Char} (hc : c ∈ ds.map ascii) :
    c.isDigit = true := by
  obtain ⟨d, _, rfl⟩ := List.mem_map.1 hc
  exact d.isDigit_ascii

/-- Digits in ASCII are read as the number that they denote. -/
theorem digitsValue_map (ds : List Digit) : digitsValue 10 (ds.map ascii) = number ds := by
  rw [number, Nat.ofDigits_eq_foldr, List.foldr_reverse, List.foldl_map, digitsValue,
    List.foldl_map]
  refine List.foldl_ext _ _ 0 fun n d _ => ?_
  rw [digitValue?_of_isDigit d.isDigit_ascii, toNat_ascii, Option.getD_some]
  push_cast
  omega

/-- The number that digits write is bounded by how many they are. -/
theorem number_lt (ds : List Digit) : number ds < 10 ^ ds.length := by
  have hlt : ∀ v ∈ (ds.map value).reverse, v < 10 := by
    intro v hv
    obtain ⟨d, _, rfl⟩ := List.mem_map.1 (List.mem_reverse.1 hv)
    exact d.value_lt
  simpa [number] using Nat.ofDigits_lt_base_pow_length (by decide) hlt

end Digit

/-! ### The parts of a text -/

/-- The sign of a numeral is taken, and the digits after it stay. -/
theorem takeSign_chars (sign : Option Sign) {ds : List Digit} (hne : ds ≠ []) (rest : List Char) :
    takeSign (Sign.chars sign ++ (ds.map Digit.ascii ++ rest)) =
      (decide (sign = some .minus), ds.map Digit.ascii ++ rest) := by
  obtain ⟨d, ds, rfl⟩ := List.exists_cons_of_ne_nil hne
  rcases sign with _ | _ | _
  · exact takeSign_of_isDigit d.isDigit_ascii _
  · rfl
  · rfl

/-- Digits of all scripts are read as the plain ones. -/
theorem Digit.map_plainChar (ds : List Digit) :
    (ds.map Digit.char).map plainChar = ds.map Digit.ascii := by
  rw [List.map_map]
  exact List.map_congr_left fun d _ => d.plainChar_char

/-- Signs stand for themselves. -/
theorem Sign.map_plainChar (sign : Option Sign) :
    (Sign.chars sign).map plainChar = Sign.chars sign := by
  rcases sign with _ | _ | _ <;> rfl

/-- An exponent is read as the one in plain digits. -/
theorem ExponentPart.map_plainChar (e : ExponentPart) :
    (e.chars Digit.char).map plainChar = e.chars Digit.ascii := by
  have hmark : plainChar (if e.capital then 'E' else 'e') = if e.capital then 'E' else 'e' := by
    cases e.capital <;> rfl
  rw [chars, List.map_cons, List.map_append, hmark, Sign.map_plainChar, Digit.map_plainChar, chars]

namespace DecimalNumeral

variable (w : DecimalNumeral)

/-- Without a fraction the exponent follows the whole part. -/
theorem tail_of_none (h : w.fraction = none) (digit : Digit → Char) :
    w.tail digit = w.exponentChars digit := by
  rw [tail, h]
  rfl

/-- A fraction follows the whole part after a point, before the exponent. -/
theorem tail_of_some {ds : List Digit} (h : w.fraction = some ds) (digit : Digit → Char) :
    w.tail digit = '.' :: (ds.map digit ++ w.exponentChars digit) := by
  rw [tail, h]
  rfl

/-- An exponent begins with its letter. -/
theorem head?_exponentChars {digit : Digit → Char} {c : Char}
    (hc : c ∈ (w.exponentChars digit).head?) : c = 'e' ∨ c = 'E' := by
  unfold exponentChars at hc
  cases he : w.exponent with
  | none =>
    rw [he] at hc
    contradiction
  | some e =>
    rw [he] at hc
    obtain rfl := Option.some.inj hc
    cases e.capital
    · exact .inl rfl
    · exact .inr rfl

/-- An exponent ends the digits before it. -/
theorem endsRun_exponentChars (digit : Digit → Char) : EndsRun (w.exponentChars digit) :=
  fun _ hc => .inr (w.head?_exponentChars hc)

/-- So does what follows the whole part. -/
theorem endsRun_tail (digit : Digit → Char) : EndsRun (w.tail digit) := by
  cases hf : w.fraction with
  | none =>
    rw [w.tail_of_none hf]
    exact w.endsRun_exponentChars digit
  | some ds =>
    rw [w.tail_of_some hf]
    exact fun c hc => .inl (Option.some.inj hc).symm

/-- With digits in ASCII the parts of a numeral are as they were. -/
theorem plainForm_text : plainForm w.text = w.chars Digit.ascii := by
  have hexponent : (w.exponentChars Digit.char).map plainChar = w.exponentChars Digit.ascii := by
    unfold exponentChars
    cases w.exponent with
    | none => rfl
    | some e => exact e.map_plainChar
  have htail : (w.tail Digit.char).map plainChar = w.tail Digit.ascii := by
    cases hf : w.fraction with
    | none => rw [w.tail_of_none hf, w.tail_of_none hf, hexponent]
    | some ds =>
      rw [w.tail_of_some hf, w.tail_of_some hf, List.map_cons, List.map_append,
        Digit.map_plainChar, hexponent]
      rfl
  rw [plainForm, text, String.toList_ofList, chars, List.map_append, List.map_append,
    Sign.map_plainChar, Digit.map_plainChar, htail, chars]

/-- The characters of a numeral in plain digits. -/
theorem mem_chars {c : Char} (hc : c ∈ w.chars Digit.ascii) :
    c.isDigit = true ∨ c ∈ ['+', '-', '.', 'e', 'E'] := by
  have hsign : ∀ sign, c ∈ Sign.chars sign → c ∈ ['+', '-', '.', 'e', 'E'] := by
    rintro (_ | _ | _) h <;> simp_all [Sign.chars]
  have hexponent : c ∈ w.exponentChars Digit.ascii →
      c.isDigit = true ∨ c ∈ ['+', '-', '.', 'e', 'E'] := by
    intro h
    unfold exponentChars at h
    cases he : w.exponent with
    | none => simp [he] at h
    | some e =>
      rw [he, Option.elim_some, ExponentPart.chars, List.mem_cons, List.mem_append] at h
      rcases h with rfl | h | h
      · cases e.capital <;> simp
      · exact .inr (hsign _ h)
      · exact .inl (Digit.isDigit_of_mem_map h)
  rw [chars, List.mem_append, List.mem_append] at hc
  rcases hc with hc | hc | hc
  · exact .inr (hsign _ hc)
  · exact .inl (Digit.isDigit_of_mem_map hc)
  · cases hf : w.fraction with
    | none =>
      rw [w.tail_of_none hf] at hc
      exact hexponent hc
    | some ds =>
      rw [w.tail_of_some hf, List.mem_cons, List.mem_append] at hc
      rcases hc with rfl | hc | hc
      · simp
      · exact .inl (Digit.isDigit_of_mem_map hc)
      · exact hexponent hc

/-- None of them is a blank. -/
theorem isFormatBlank_of_mem_chars {c : Char} (hc : c ∈ w.chars Digit.ascii) :
    isFormatBlank c = false := by
  rcases w.mem_chars hc with hc | hc
  · exact isFormatBlank_of_isDigit hc
  · simp only [List.mem_cons, List.not_mem_nil, or_false] at hc
    rcases hc with rfl | rfl | rfl | rfl | rfl <;> rfl

/-- None of them is an underscore. -/
theorem ne_of_mem_chars {c : Char} (hc : c ∈ w.chars Digit.ascii) : c ≠ '_' := by
  rintro rfl
  rcases w.mem_chars hc with hc | hc
  · contradiction
  · simp at hc

/-- The sign is split off from the text. -/
theorem takeSign_text : takeSign (w.chars Digit.ascii) =
    (w.negative, w.whole.map Digit.ascii ++ w.tail Digit.ascii) :=
  takeSign_chars w.sign w.whole_ne_nil _

/-! ### Integers -/

/-- Nothing follows the whole part of a numeral without a fraction and an exponent. -/
theorem tail_eq_nil_iff (digit : Digit → Char) :
    w.tail digit = [] ↔ w.fraction = none ∧ w.exponent = none := by
  unfold tail exponentChars
  cases w.fraction <;> cases w.exponent <;> simp [ExponentPart.chars]

/-- The whole part is no longer than the numeral. -/
theorem length_whole_le : w.whole.length ≤ w.text.length := by
  rw [text, String.length_ofList, chars, List.length_append, List.length_append, List.length_map]
  omega

/-- The value of a numeral without fraction and exponent. -/
theorem value_of_none (hfraction : w.fraction = none) (hexponent : w.exponent = none) :
    w.value = ((if w.negative then -Digit.number w.whole else Digit.number w.whole : ℤ) : ℚ) := by
  rw [value, scaled, digits, fractionDigits, exponentValue, hfraction, hexponent]
  cases w.negative <;> simp [Binary64.withSign]

/-- A plain numeral denotes an integer. -/
theorem den_value_of_isPlain (h : w.IsPlain) : w.value.den = 1 := by
  rw [w.value_of_none h.1 h.2.1]
  exact Rat.den_intCast _

/-- Plain numerals by their characters. -/
theorem isPlain_iff : w.IsPlain ↔ w.tail Digit.ascii = [] ∧
    ((w.whole.map Digit.ascii).head? = some '0' → Digit.number w.whole = 0) := by
  have hhead : (w.whole.map Digit.ascii).head? = some '0' ↔
      (w.whole.map Digit.value).head? = some 0 := by
    cases w.whole with
    | nil => simp
    | cons d ds => simp [d.ascii_eq_zero_iff]
  rw [IsPlain, tail_eq_nil_iff, hhead, and_assoc]

/-- A numeral is read as an integer just if it is plain. -/
theorem readInteger_text (hlength : w.text.length ≤ longestDecimal) :
    readInteger 0 w.text = if w.IsPlain then .ok w.value.num else .error .malformed := by
  have hsign : takeSign ((plainForm w.text).dropWhile isFormatBlank) =
      (w.negative, w.whole.map Digit.ascii ++ w.tail Digit.ascii) := by
    rw [plainForm_text, ← w.takeSign_text]
    congr 1
    rw [List.dropWhile_eq_self_iff]
    intro hpos
    rw [w.isFormatBlank_of_mem_chars (List.getElem_mem hpos)]
    decide
  have hne : w.whole.map Digit.ascii ≠ [] := by simpa using w.whole_ne_nil
  have hdigits : ∀ c ∈ w.whole.map Digit.ascii, c.isDigit = true :=
    fun c hc => Digit.isDigit_of_mem_map hc
  have hshort : (w.whole.map Digit.ascii).length ≤ longestDecimal := by
    rw [List.length_map]
    exact w.length_whole_le.trans hlength
  rw [readInteger_of_digits_append hsign hdigits hne (w.endsRun_tail _) hshort,
    ← digitsValue_ten hdigits, Digit.digitsValue_map]
  by_cases hplain : w.IsPlain
  · rw [if_pos hplain, if_pos (w.isPlain_iff.1 hplain), w.value_of_none hplain.1 hplain.2.1,
      Rat.num_intCast]
  · rw [if_neg hplain, if_neg (mt w.isPlain_iff.2 hplain)]

end DecimalNumeral

/-! ### Floating-point numbers -/

/-- Without underscores there is nothing to drop. -/
theorem dropUnderscores?_of_forall {cs : List Char} (h : ∀ c ∈ cs, c ≠ '_') (previous : Char) :
    dropUnderscores? previous cs = some cs := by
  fun_induction dropUnderscores? previous cs with
  | case1 => rfl
  | case2 => exact absurd rfl (h '_' (by simp))
  | case3 => exact absurd rfl (h '_' (by simp))
  | case4 => exact absurd rfl (h '_' (by simp))
  | case5 _ c cs _ _ ih => rw [ih fun d hd => h d (List.mem_cons_of_mem _ hd), Option.map_some]

/-- Plain digits are digits of the first page. -/
theorem isAsciiDigit_of_isDigit {c : Char} (h : c.isDigit = true) : isAsciiDigit c = true := by
  have hbetween : '0' ≤ c ∧ c ≤ '9' := toNat_of_isDigit h
  rw [isAsciiDigit, decide_eq_true hbetween.1, decide_eq_true hbetween.2, Bool.and_self]

/-- The exponent that counts when exponents beyond a greatest one count as this. -/
def ExponentPart.bounded (greatest : ℕ) (e : ExponentPart) : ℤ :=
  if e.sign = some .minus then -(min (Digit.number e.digits) greatest : ℕ)
  else (min (Digit.number e.digits) greatest : ℕ)

/-- An exponent is read back, held within its bounds. -/
theorem ExponentPart.readExponent?_chars (greatest : ℕ) (e : ExponentPart) :
    readExponent? greatest (e.chars Digit.ascii) = some (e.bounded greatest) := by
  have hne : (e.digits.map Digit.ascii).isEmpty = false := by simpa using e.digits_ne_nil
  have hall : (e.digits.map Digit.ascii).all isAsciiDigit = true :=
    List.all_eq_true.2 fun c hc => isAsciiDigit_of_isDigit (Digit.isDigit_of_mem_map hc)
  have hmark : ((if e.capital then 'E' else 'e') == 'e' ||
      (if e.capital then 'E' else 'e') == 'E') = true := by
    cases e.capital <;> rfl
  have hsign := takeSign_chars e.sign e.digits_ne_nil []
  rw [List.append_nil] at hsign
  rw [chars, readExponent?, if_pos hmark, hsign]
  simp only [hne, hall, Digit.digitsValue_map, Bool.not_true, Bool.or_false, Bool.false_eq_true,
    if_false, bounded, decide_eq_true_eq]
  push_cast
  rfl

namespace DecimalNumeral

variable (w : DecimalNumeral)

/-- The exponent of a numeral that counts when it is read. -/
def boundedExponent : ℤ :=
  w.exponent.elim 0 (ExponentPart.bounded (greatestExponentAfter w.digits.length))

/-- So is the exponent of a numeral, which may have none. -/
theorem readExponent?_chars (greatest : ℕ) :
    readExponent? greatest (w.exponentChars Digit.ascii) =
      some (w.exponent.elim 0 (ExponentPart.bounded greatest)) := by
  unfold exponentChars
  cases w.exponent with
  | none => rfl
  | some e => exact e.readExponent?_chars greatest

/-- What is after the sign of a numeral is read as its digits and its exponent. -/
theorem readUnsigned?_chars (negative : Bool) :
    readUnsigned? negative (w.whole.map Digit.ascii ++ w.tail Digit.ascii) =
      some (ofDecimal negative (Digit.number w.digits)
        (w.boundedExponent - w.fractionDigits.length)) := by
  have hdigit : ∀ ds : List Digit, ∀ c ∈ ds.map Digit.ascii, isAsciiDigit c = true :=
    fun ds c hc => isAsciiDigit_of_isDigit (Digit.isDigit_of_mem_map hc)
  have hstop : isAsciiDigit '.' = false ∧ isAsciiDigit 'e' = false ∧ isAsciiDigit 'E' = false := by
    decide
  obtain ⟨htake, hdrop⟩ :=
    takeWhile_append_of_endsRun (w.endsRun_tail Digit.ascii) (hdigit w.whole) hstop
  have hne : (w.whole.map Digit.ascii).isEmpty = false := by simpa using w.whole_ne_nil
  have hparts : (readExponent? (greatestExponentAfter ((w.whole.map Digit.ascii).length +
      (w.fractionDigits.map Digit.ascii).length)) (w.exponentChars Digit.ascii)).map (fun e =>
      ofDecimal negative (digitsValue 10 (w.whole.map Digit.ascii ++
        w.fractionDigits.map Digit.ascii)) (e - (w.fractionDigits.map Digit.ascii).length)) =
      some (ofDecimal negative (Digit.number w.digits)
        (w.boundedExponent - w.fractionDigits.length)) := by
    rw [← List.map_append, Digit.digitsValue_map, List.length_map, List.length_map,
      ← List.length_append, readExponent?_chars]
    rfl
  unfold readUnsigned?
  dsimp only
  rw [htake, hdrop]
  cases hf : w.fraction with
  | none =>
    have hnone : w.fractionDigits = [] := by rw [fractionDigits, hf, Option.getD_none]
    rw [w.tail_of_none hf]
    split
    · next heq =>
      have hpoint := w.head?_exponentChars (c := '.') (by rw [heq]; rfl)
      simp at hpoint
    · rw [hne, Bool.false_and, if_neg (by decide)]
      rw [hnone] at hparts ⊢
      exact hparts
  | some ds =>
    have hsome : w.fractionDigits = ds := by rw [fractionDigits, hf, Option.getD_some]
    obtain ⟨htake', hdrop'⟩ :=
      takeWhile_append_of_endsRun (w.endsRun_exponentChars Digit.ascii) (hdigit ds) hstop
    rw [w.tail_of_some hf]
    split
    · next heq =>
      obtain ⟨_, rfl⟩ := List.cons.inj heq
      rw [htake', hdrop', hne, Bool.false_and, if_neg (by decide)]
      rw [hsome] at hparts ⊢
      exact hparts
    · next hpoint => exact absurd rfl (hpoint _)

/-- What begins with a digit is not a word. -/
theorem ofList_toLower_ne {c : Char} (hc : c.isDigit = false) (cs : List Char) :
    String.ofList ((w.whole.map Digit.ascii ++ w.tail Digit.ascii).map Char.toLower) ≠
      String.ofList (c :: cs) := by
  intro heq
  obtain ⟨d, ds, hwhole⟩ := List.exists_cons_of_ne_nil w.whole_ne_nil
  rw [String.ofList_inj, hwhole, List.map_cons, List.cons_append, List.map_cons,
    d.toLower_ascii] at heq
  exact ne_of_isDigit d.isDigit_ascii hc (List.cons.inj heq).1

/-- A numeral is read as a floating-point number. -/
theorem readFloat?_text_eq : readFloat? w.text =
    some (ofDecimal w.negative (Digit.number w.digits)
      (w.boundedExponent - w.fractionDigits.length)) := by
  have htrim : trimBy isFormatBlank (plainForm w.text) = w.chars Digit.ascii := by
    rw [plainForm_text]
    exact trimBy_of_forall fun c hc => w.isFormatBlank_of_mem_chars hc
  have hplain := dropUnderscores?_of_forall (fun c hc => w.ne_of_mem_chars hc) ' '
  unfold readFloat?
  rw [htrim, hplain]
  dsimp only
  rw [w.takeSign_text]
  dsimp only
  split
  · next heq => exact absurd heq (w.ofList_toLower_ne (c := 'i') rfl ['n', 'f'])
  · next heq =>
    exact absurd heq (w.ofList_toLower_ne (c := 'i') rfl ['n', 'f', 'i', 'n', 'i', 't', 'y'])
  · next heq => exact absurd heq (w.ofList_toLower_ne (c := 'n') rfl ['a', 'n'])
  · exact w.readUnsigned?_chars w.negative

end DecimalNumeral

/-! ### Rounding -/

/-- The numbers of at most three hundred digits are well within the range. -/
theorem ten_pow_lt : (10 : ℚ) ^ 300 < 2 ^ 1023 := by
  calc (10 : ℚ) ^ 300 = (10 ^ 3) ^ 100 := pow_mul 10 3 100
    _ < (2 ^ 10) ^ 100 := pow_lt_pow_left₀ (by norm_num) (by norm_num) (by norm_num)
    _ = 2 ^ 1000 := (pow_mul 2 10 100).symm
    _ ≤ 2 ^ 1023 := pow_le_pow_right₀ one_le_two (by norm_num)

/-- Twice the inverse of the least number is below a power of ten. -/
theorem two_mul_two_pow_lt : (2 : ℚ) * 2 ^ 1074 < 10 ^ 400 := by
  calc (2 : ℚ) * 2 ^ 1074 = 2 ^ 1075 := (pow_succ' 2 1074).symm
    _ ≤ 2 ^ 1200 := pow_le_pow_right₀ one_le_two (by norm_num)
    _ = (2 ^ 3) ^ 400 := pow_mul 2 3 400
    _ < 10 ^ 400 := pow_lt_pow_left₀ (by norm_num) (by norm_num) (by norm_num)

/-- A decimal in the range is read as a number nearest to it. -/
theorem isNearest_ofDecimal (negative : Bool) {n : ℕ} {e : ℤ} (h : (n : ℚ) * 10 ^ e < 2 ^ 1023) :
    Binary64.IsNearest (Binary64.withSign negative (n * 10 ^ e)) (ofDecimal negative n e) := by
  cases e with
  | ofNat k =>
    have hquotient : ((n * Nat.pow 10 k : ℕ) : ℚ) / (1 : ℕ) = n * 10 ^ (Int.ofNat k) := by simp
    rw [← hquotient] at h ⊢
    exact Binary64.isNearest_ofQuotient negative _ one_pos h
  | negSucc k =>
    have hquotient : (n : ℚ) / (Nat.pow 10 (k + 1) : ℕ) = n * 10 ^ (Int.negSucc k) := by
      simp [zpow_negSucc, div_eq_mul_inv]
    rw [← hquotient] at h ⊢
    exact Binary64.isNearest_ofQuotient negative n (Nat.pow_pos (by decide)) h

/-- An exponent is bounded only if it is beyond the bound. -/
theorem ExponentPart.bounded_cases (greatest : ℕ) (e : ExponentPart) :
    e.bounded greatest = e.value ∨ (greatest : ℤ) < e.value ∨
      e.value < -greatest ∧ e.bounded greatest = -greatest := by
  unfold bounded value
  split <;> omega

namespace DecimalNumeral

variable (w : DecimalNumeral)

/-- What a numeral comes to without its sign. -/
theorem abs_withSign_scaled (negative : Bool) (e : ℤ) :
    |Binary64.withSign negative (w.scaled e)| = w.scaled e := by
  rw [Binary64.abs_withSign, abs_of_nonneg]
  unfold scaled
  positivity

/-- Holding the exponent within its bounds changes it only far beyond the digits. -/
theorem boundedExponent_cases : w.boundedExponent = w.exponentValue ∨
    (w.digits.length + 400 : ℤ) < w.exponentValue ∨
      w.exponentValue < -(w.digits.length + 400 : ℤ) ∧
        w.boundedExponent = -(w.digits.length + 400 : ℤ) := by
  unfold boundedExponent exponentValue
  cases w.exponent with
  | none => exact .inl rfl
  | some e =>
    have hcases := e.bounded_cases (greatestExponentAfter w.digits.length)
    unfold greatestExponentAfter at hcases ⊢
    push_cast at hcases
    exact hcases

/-- With a large exponent the digits denote a large number, unless they denote zero. -/
theorem scaled_eq_zero_or_le {e : ℤ} (he : (w.digits.length + 400 : ℤ) < e) :
    Digit.number w.digits = 0 ∨ 10 ^ 300 ≤ w.scaled e := by
  refine (Nat.eq_zero_or_pos _).imp_right fun hpos => ?_
  have hone : (1 : ℚ) ≤ Digit.number w.digits := by exact_mod_cast hpos
  have hfraction : w.fractionDigits.length ≤ w.digits.length := by
    rw [digits, List.length_append]
    omega
  calc (10 : ℚ) ^ 300 = 1 * 10 ^ (300 : ℤ) := by rw [one_mul]; rfl
    _ ≤ w.scaled e := by
        unfold scaled
        gcongr
        · norm_num
        · omega

/-- With a small exponent the digits denote less than half of the least number. -/
theorem two_mul_scaled_lt {e : ℤ} (he : e ≤ -(w.digits.length + 400 : ℤ)) :
    2 * w.scaled e < 2 ^ Binary64.leastExponent := by
  have hdigits : (Digit.number w.digits : ℚ) ≤ 10 ^ (w.digits.length : ℤ) := by
    rw [zpow_natCast]
    exact_mod_cast (Digit.number_lt w.digits).le
  calc 2 * w.scaled e
      ≤ 2 * (10 ^ (w.digits.length : ℤ) * 10 ^ (e - w.fractionDigits.length)) := by
        unfold scaled
        gcongr
    _ = 2 * 10 ^ (w.digits.length + (e - w.fractionDigits.length)) := by
        rw [← zpow_add₀ (by norm_num)]
    _ ≤ 2 * 10 ^ (-400 : ℤ) := by
        gcongr
        · norm_num
        · omega
    _ < 2 ^ Binary64.leastExponent := by
        rw [Binary64.leastExponent, zpow_neg, zpow_neg, ← div_eq_mul_inv, ← one_div,
          div_lt_div_iff₀ (by positivity) (by positivity), one_mul]
        exact_mod_cast two_mul_two_pow_lt

/-- A numeral is read to the number that is nearest to its value. -/
theorem readFloat?_text (h : |w.value| < 10 ^ 300) :
    ∃ x, readFloat? w.text = some x ∧ x.IsNearest w.value := by
  refine ⟨_, w.readFloat?_text_eq, ?_⟩
  rw [value, abs_withSign_scaled] at h
  have hexact : ∀ {e : ℤ}, w.scaled e < 2 ^ 1023 → Binary64.IsNearest
      (Binary64.withSign w.negative (w.scaled e))
      (ofDecimal w.negative (Digit.number w.digits) (e - w.fractionDigits.length)) :=
    fun hlimit => isNearest_ofDecimal w.negative hlimit
  rcases w.boundedExponent_cases with hsame | hlarge | ⟨hsmall, hbounded⟩
  · rw [hsame]
    exact hexact (h.trans ten_pow_lt)
  · -- Only a zero is written with such an exponent, and it is the same with any other.
    have hzero := (w.scaled_eq_zero_or_le hlarge).resolve_right (not_le.2 h)
    have hany : ∀ e, w.scaled e = 0 := fun e => by rw [scaled, hzero, Nat.cast_zero, zero_mul]
    rw [value, hany, ← hany w.boundedExponent]
    exact hexact ((hany _).trans_lt (by norm_num))
  · -- Both the value and what is read in its place are rounded to zero.
    have htiny : ∀ e ≤ -(w.digits.length + 400 : ℤ),
        2 * |Binary64.withSign w.negative (w.scaled e)| < 2 ^ Binary64.leastExponent := by
      intro e he
      rw [abs_withSign_scaled]
      exact w.two_mul_scaled_lt he
    have hlimit : w.scaled w.boundedExponent < 2 ^ 1023 := by
      have hleast : (2 : ℚ) ^ Binary64.leastExponent ≤ 1 :=
        zpow_le_one_of_nonpos₀ one_le_two (by decide)
      have htwice := (w.two_mul_scaled_lt hbounded.le).trans_le hleast
      have hone : w.scaled w.boundedExponent < 1 := by linarith
      exact hone.trans_le (one_le_pow₀ one_le_two)
    rw [value, Binary64.isNearest_iff_of_lt (htiny _ hsmall.le),
      ← Binary64.isNearest_iff_of_lt (htiny _ hbounded.le)]
    exact hexact hlimit

end DecimalNumeral

end ConfigAssembly
