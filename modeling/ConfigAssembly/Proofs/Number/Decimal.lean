import Mathlib.Data.List.Basic
import Mathlib.Data.List.TakeWhile
import ConfigAssembly.Number.Numeral

/-!
# Written integers are read back

An integer is written with a sign if it is negative, and with digits of which the first is a zero
only if it is alone. Such a numeral is read in base ten when no base is given: it has no mark of
another base, and it does not begin with a zero that only zero may begin with
(`Numeral.readInteger_of_digits_append`). So the integer is read back, if it has not too many digits
(`Numeral.readInteger_toString`).
-/

namespace ConfigAssembly.Numeral

open ConfigAssembly.Text

/-! ### Digits -/

section Digits

variable {c : Char}

/-- The codes of the digits. -/
theorem toNat_of_isDigit (h : c.isDigit = true) : 48 ≤ c.toNat ∧ c.toNat ≤ 57 := by
  rw [Char.isDigit, Bool.and_eq_true, decide_eq_true_eq, decide_eq_true_eq] at h
  exact h

/-- The value of a digit is how far it is from zero. -/
theorem digitValue?_of_isDigit (h : c.isDigit = true) : digitValue? c = some (c.toNat - 48) := by
  have hbetween : '0' ≤ c ∧ c ≤ '9' := toNat_of_isDigit h
  rw [digitValue?, if_pos hbetween]

/-- It is a digit to base ten. -/
theorem isDigitOf_ten_of_isDigit (h : c.isDigit = true) : isDigitOf 10 c = true := by
  have hbounds := toNat_of_isDigit h
  rw [isDigitOf, digitValue?_of_isDigit h]
  exact decide_eq_true (by omega)

/-- A character of the first half of the first page stands for itself. -/
theorem plainChar_of_lt (h : c.toNat < 127) : plainChar c = c := if_pos h

/-- A digit is no blank. -/
theorem isFormatBlank_of_isDigit (h : c.isDigit = true) : isFormatBlank c = false := by
  have hbounds := toNat_of_isDigit h
  simp only [isFormatBlank, Bool.or_eq_false_iff, beq_eq_false_iff_ne, Bool.and_eq_false_iff,
    decide_eq_false_iff_not]
  omega

/-- A digit is no underscore, no sign, and no mark of a base. -/
theorem ne_of_isDigit {d : Char} (h : c.isDigit = true) (hd : d.isDigit = false) : c ≠ d := by
  rintro rfl
  rw [h] at hd
  contradiction

/-- Before a digit there is no sign. -/
theorem takeSign_of_isDigit (h : c.isDigit = true) (cs : List Char) :
    takeSign (c :: cs) = (false, c :: cs) := by
  unfold takeSign
  split
  · next heq => exact absurd (List.cons.inj heq).1 (ne_of_isDigit h rfl)
  · next heq => exact absurd (List.cons.inj heq).1 (ne_of_isDigit h rfl)
  · rfl

end Digits

section Runs

variable {ds : List Char}

/-- The value of digits to base ten is the one that the library reads. -/
theorem digitsValue_ten (h : ∀ c ∈ ds, c.isDigit = true) :
    digitsValue 10 ds = Nat.ofDigitChars 10 ds 0 := by
  rw [digitsValue, Nat.ofDigitChars_eq_foldl]
  refine List.foldl_ext _ _ 0 fun n c hc => ?_
  rw [digitValue?_of_isDigit (h c hc), Nat.mul_comm]
  rfl

/-- Digits without underscores are well spaced. -/
theorem wellSpaced_of_digits (h : ∀ c ∈ ds, c.isDigit = true) : wellSpaced ds = true := by
  have hspace : ∀ c ∈ ds, c ≠ '_' := fun c hc => ne_of_isDigit (h c hc) rfl
  clear h
  fun_induction wellSpaced ds with
  | case1 => rfl
  | case2 => exact absurd rfl (hspace _ List.mem_cons_self)
  | case3 => rfl
  | case4 => exact absurd rfl (hspace '_' (by simp))
  | case5 c d cs _ _ ih => exact ih fun e he => hspace e (List.mem_cons_of_mem _ he)

/-- What may follow the digits of a decimal numeral: a point, an exponent, or nothing. -/
def EndsRun (rest : List Char) : Prop := ∀ c ∈ rest.head?, c = '.' ∨ c = 'e' ∨ c = 'E'

/-- A run of digits is all that is taken from it and what ends it. -/
theorem takeWhile_append_of_endsRun {p : Char → Bool} {rest : List Char} (hrest : EndsRun rest)
    (hdigits : ∀ c ∈ ds, p c = true) (hend : p '.' = false ∧ p 'e' = false ∧ p 'E' = false) :
    (ds ++ rest).takeWhile p = ds ∧ (ds ++ rest).dropWhile p = rest := by
  rw [List.takeWhile_append_of_pos hdigits, List.dropWhile_append_of_pos hdigits]
  cases rest with
  | nil => simp
  | cons c cs =>
    have hc : ¬ p c = true := by
      rw [Bool.not_eq_true]
      rcases hrest c rfl with rfl | rfl | rfl
      exacts [hend.1, hend.2.1, hend.2.2]
    rw [List.takeWhile_cons_of_neg hc, List.dropWhile_cons_of_neg hc, List.append_nil]
    exact ⟨rfl, rfl⟩

/-- The base of digits is ten, and if they begin with a zero they may only denote zero. -/
theorem markedBase_of_digits {rest : List Char} (hdigits : ∀ c ∈ ds, c.isDigit = true)
    (hne : ds ≠ []) (hrest : EndsRun rest) :
    markedBase (ds ++ rest) = (10, decide (ds.head? = some '0')) := by
  obtain ⟨d, ds, rfl⟩ := List.exists_cons_of_ne_nil hne
  rw [List.cons_append, List.head?_cons]
  by_cases hd : d = '0'
  · subst hd
    cases hall : ds ++ rest with
    | nil => rfl
    | cons c cs =>
      -- What follows the zero is a digit or ends the run, and so is no mark.
      have hc : c.isDigit = true ∨ c = '.' ∨ c = 'e' ∨ c = 'E' := by
        cases ds with
        | nil => exact .inr (hrest c (by rw [← List.nil_append rest, hall]; rfl))
        | cons e es =>
          obtain ⟨rfl, _⟩ := List.cons.inj hall
          exact .inl (hdigits e (by simp))
      have hmark : ∀ m : Char, m.isDigit = false → m ≠ '.' ∧ m ≠ 'e' ∧ m ≠ 'E' → c ≠ m := by
        rintro m hm ⟨hpoint, hsmall, hlarge⟩ rfl
        simp [hm, hpoint, hsmall, hlarge] at hc
      simp [markedBase, hmark 'x', hmark 'X', hmark 'o', hmark 'O', hmark 'b', hmark 'B']
  · have hbase : markedBase (d :: (ds ++ rest)) = (10, false) := by
      unfold markedBase
      split
      · next heq => exact absurd (List.cons.inj heq).1 hd
      · next heq => exact absurd (List.cons.inj heq).1 hd
      · rfl
    rw [hbase, decide_eq_false (by simpa using hd)]

/-- Ten has no mark. -/
theorem dropMark_ten : dropMark 10 ds = ds := by
  unfold dropMark
  split
  · rw [if_neg (by simp [isMarkOf])]
  · rfl

/-- Digits with a sign mean the number of the digits with the sign, but only if they are all, and if
they do not begin with a zero or are all zeros. -/
theorem readInteger_of_digits_append {s : String} {negative : Bool} {rest : List Char}
    (hsign : takeSign ((plainForm s).dropWhile isFormatBlank) = (negative, ds ++ rest))
    (hdigits : ∀ c ∈ ds, c.isDigit = true) (hne : ds ≠ []) (hrest : EndsRun rest)
    (hlength : ds.length ≤ longestDecimal) :
    readInteger 0 s =
      if rest = [] ∧ (ds.head? = some '0' → Nat.ofDigitChars 10 ds 0 = 0) then
        .ok (if negative then -(Nat.ofDigitChars 10 ds 0 : Int) else Nat.ofDigitChars 10 ds 0)
      else .error .malformed := by
  obtain ⟨htake, hdrop⟩ := takeWhile_append_of_endsRun hrest
    (p := fun c => isDigitOf 10 c || c == '_')
    (fun c hc => by rw [isDigitOf_ten_of_isDigit (hdigits c hc), Bool.true_or]) (by decide)
  have hfilter : ds.filter (· != '_') = ds := by
    refine List.filter_eq_self.2 fun c hc => bne_iff_ne.2 ?_
    exact ne_of_isDigit (hdigits c hc) rfl
  have hshort : ¬ longestDecimal < ds.length := by omega
  have hblank : (rest.dropWhile isFormatBlank).isEmpty = decide (rest = []) := by
    cases rest with
    | nil => rfl
    | cons c cs =>
      have hc : ¬ isFormatBlank c = true := by
        rcases hrest c rfl with rfl | rfl | rfl <;> decide
      rw [List.dropWhile_cons_of_neg hc, decide_eq_false (List.cons_ne_nil c cs)]
      rfl
  simp only [readInteger, hsign, beq_self_eq_true, if_true, markedBase_of_digits hdigits hne hrest,
    dropMark_ten, htake, hdrop, hfilter, digitsValue_ten hdigits, wellSpaced_of_digits hdigits,
    hblank]
  by_cases hall : rest = [] <;> by_cases hzero : ds.head? = some '0' <;>
    simp [hshort, hne, hall, hzero]

/-- Digits with a sign, of which the first is a zero only if it is alone, mean the number of the
digits with the sign. -/
theorem readInteger_of_digits {s : String} {negative : Bool}
    (hsign : takeSign ((plainForm s).dropWhile isFormatBlank) = (negative, ds))
    (hdigits : ∀ c ∈ ds, c.isDigit = true) (hne : ds ≠ [])
    (hlead : ds.head? = some '0' → ds = ['0']) (hlength : ds.length ≤ longestDecimal) :
    readInteger 0 s =
      .ok (if negative then -(Nat.ofDigitChars 10 ds 0 : Int) else Nat.ofDigitChars 10 ds 0) := by
  have hzero : ds.head? = some '0' → Nat.ofDigitChars 10 ds 0 = 0 := fun h => by
    rw [hlead h]
    rfl
  have hall : takeSign ((plainForm s).dropWhile isFormatBlank) = (negative, ds ++ []) := by
    rw [hsign, List.append_nil]
  rw [readInteger_of_digits_append hall hdigits hne nofun hlength, if_pos ⟨rfl, hzero⟩]

end Runs

/-! ### Written integers -/

/-- A number is written in digits. -/
theorem isDigit_of_mem_toDigits {n : Nat} {c : Char} (h : c ∈ Nat.toDigits 10 n) :
    c.isDigit = true :=
  Nat.isDigit_of_mem_toDigits (by decide) (by decide) h

/-- The digits of a number begin with a zero only if this is all. -/
theorem toDigits_of_head? {n : Nat} (h : (Nat.toDigits 10 n).head? = some '0') :
    Nat.toDigits 10 n = ['0'] := by
  induction n using Nat.strongRecOn with
  | ind n ih =>
    rw [Nat.toDigits_eq_if (by decide)] at h ⊢
    by_cases hn : n < 10
    · rw [if_pos hn] at h ⊢
      rw [Option.some.inj h]
    · -- The digits before the last one are those of a smaller number, which is not zero.
      rw [if_neg hn, List.head?_append_of_ne_nil _ Nat.toDigits_ne_nil] at h
      have hzero := ih (n / 10) (by omega) h
      have hvalue : Nat.ofDigitChars 10 (Nat.toDigits 10 (n / 10)) 0 = n / 10 :=
        Nat.ofDigitChars_ten_toDigits
      rw [hzero] at hvalue
      have hnone : n / 10 = 0 := hvalue.symm
      omega

/-- The text of an integer: the digits, after a minus if it is negative. -/
theorem toList_toString (i : Int) :
    (toString i).toList = (if i < 0 then ['-'] else []) ++ Nat.toDigits 10 i.natAbs := by
  rw [Int.toString_eq_repr, Int.repr_eq_if]
  by_cases hi : i < 0
  · rw [if_neg (by omega), if_pos hi, String.toList_append, Nat.toList_repr,
      show (-i).toNat = i.natAbs by omega]
    rfl
  · rw [if_pos (by omega), if_neg hi, Nat.toList_repr, show i.toNat = i.natAbs by omega]
    rfl

/-- The text of an integer is in ASCII and has no blanks before it, so that only the sign is split
off. -/
theorem takeSign_toString (i : Int) :
    takeSign ((plainForm (toString i)).dropWhile isFormatBlank) =
      (decide (i < 0), Nat.toDigits 10 i.natAbs) := by
  have hplain : plainForm (toString i) = (toString i).toList := by
    refine (List.map_congr_left fun c hc => ?_).trans (List.map_id _)
    rw [toList_toString, List.mem_append] at hc
    rcases hc with hc | hc
    · obtain rfl : c = '-' := by
        split at hc
        · exact List.mem_singleton.1 hc
        · contradiction
      rfl
    · have hbounds := toNat_of_isDigit (isDigit_of_mem_toDigits hc)
      exact plainChar_of_lt (by omega)
  obtain ⟨d, ds, hds⟩ := List.exists_cons_of_ne_nil (Nat.toDigits_ne_nil (n := i.natAbs) (b := 10))
  have hd : d.isDigit = true := isDigit_of_mem_toDigits (hds ▸ List.mem_cons_self)
  rw [hplain, toList_toString, hds]
  by_cases hi : i < 0
  · rw [if_pos hi, decide_eq_true hi]
    rfl
  · rw [if_neg hi, decide_eq_false hi, List.nil_append,
      List.dropWhile_cons_of_neg (by simp [isFormatBlank_of_isDigit hd])]
    exact takeSign_of_isDigit hd ds

/-- An integer is read back from its text, if it has not too many digits. -/
theorem readInteger_toString {i : Int}
    (h : (Nat.toDigits 10 i.natAbs).length ≤ longestDecimal) :
    readInteger 0 (toString i) = .ok i := by
  rw [readInteger_of_digits (takeSign_toString i) (fun c => isDigit_of_mem_toDigits)
    Nat.toDigits_ne_nil toDigits_of_head? h, Nat.ofDigitChars_ten_toDigits]
  congr 1
  by_cases hi : i < 0
  · rw [decide_eq_true hi, if_pos rfl]
    omega
  · rw [decide_eq_false hi, if_neg (by decide)]
    omega

end ConfigAssembly.Numeral
