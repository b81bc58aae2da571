import Mathlib.Algebra.Order.Field.Power
import Mathlib.Data.Rat.Lemmas
import Mathlib.Tactic.FieldSimp
import Mathlib.Tactic.Linarith
import Mathlib.Tactic.NormNum
import Mathlib.Tactic.Positivity
import Mathlib.Tactic.Ring
import ConfigAssembly.Number.Binary64

/-!
# Quotients are rounded to the nearest number

`Binary64.IsNearest` says what the rounding of a rational number is: no number of the format is
nearer, and of two that are equally near it is the one with an even significand. A quotient is
rounded on the grid of the multiples of `2 ^ exponentFor`, on which the significands have 53 bits
(`exponentFor_spec`, `IsRounding`); what is nearest there is nearest among all numbers, since those
that are not on the grid lie beyond one that is (`IsRounding.abs_sub_le_of_representable`). So
`ofQuotient` rounds correctly (`isNearest_ofQuotient`). Rounding changes a rational number by a part
in `2 ^ 53` of it at most, unless this is very small (`IsNearest.abs_sub_le`,
`isNearest_iff_of_lt`); so integers up to `2 ^ 53` are kept, and what is not near to an integer is
not rounded to one (`IsNearest.den_ne_one`), while from `2 ^ 52` on everything is
(`IsNearest.den_eq_one`). Whether the number is an integer and which one is told by `toInt?`
(`toInt?_eq`).
-/

namespace ConfigAssembly.Binary64

/-! ### Numbers as rational numbers -/

/-- The rational number that a finite number stands for. -/
def toRat : Binary64 → ℚ
  | .finite negative m e => signed negative m * 2 ^ e
  | _ => 0

/-- A rational number with a minus or without. -/
def withSign (negative : Bool) (q : ℚ) : ℚ := if negative then -q else q

/-- The finite numbers, each in its one representation. -/
def IsNumber : Binary64 → Prop
  | .finite _ m e =>
    m < 2 ^ 53 ∧ leastExponent ≤ e ∧ e ≤ greatestExponent ∧ (2 ^ 52 ≤ m ∨ e = leastExponent)
  | _ => False

/-- The significand of a finite number. -/
def significand : Binary64 → ℕ
  | .finite _ m _ => m
  | _ => 0

/-- A rational number that is one of the format. -/
def Representable (r : ℚ) : Prop :=
  ∃ m e : ℤ, |m| < 2 ^ 53 ∧ leastExponent ≤ e ∧ e ≤ greatestExponent ∧ r = m * 2 ^ e

/-- A number is the nearest one to a rational number, and of two that are equally near it is the one
with an even significand. -/
structure IsNearest (q : ℚ) (x : Binary64) : Prop where
  isNumber : x.IsNumber
  nearest : ∀ r, Representable r → |q - x.toRat| ≤ |q - r|
  even : ∀ r, Representable r → r ≠ x.toRat → |q - r| = |q - x.toRat| → Even x.significand

/-- The other sign makes the negative. -/
theorem signed_neg (negative : Bool) (m : ℕ) : signed (!negative) m = -signed negative m := by
  cases negative <;> simp [signed]

/-- The value of the negative. -/
@[simp] theorem toRat_neg (x : Binary64) : x.neg.toRat = -x.toRat := by
  cases x with
  | finite negative m e =>
    rw [neg, toRat, toRat, signed_neg, Int.cast_neg, neg_mul]
  | _ => simp [neg, toRat]

/-- The negative has the same digits. -/
@[simp] theorem significand_neg (x : Binary64) : x.neg.significand = x.significand := by
  cases x <;> rfl

/-- The negative of a number is a number. -/
theorem IsNumber.neg {x : Binary64} (h : x.IsNumber) : x.neg.IsNumber := by
  cases x with
  | finite negative m e => exact h
  | _ => exact h

/-- A sign does not change the absolute value. -/
theorem abs_withSign (negative : Bool) (q : ℚ) : |withSign negative q| = |q| := by
  cases negative
  · rfl
  · exact abs_neg q

/-- Nor does it that of a whole number. -/
theorem abs_signed (negative : Bool) (m : ℕ) : |signed negative m| = m := by
  cases negative <;> simp [signed]

/-- The value of a number can be represented. -/
theorem IsNumber.representable {x : Binary64} (h : x.IsNumber) : Representable x.toRat := by
  cases x with
  | finite negative m e =>
    obtain ⟨hm, hleast, hgreatest, _⟩ := h
    refine ⟨signed negative m, e, ?_, hleast, hgreatest, rfl⟩
    rw [abs_signed]
    exact_mod_cast hm
  | _ => exact h.elim

/-- The negative of what can be represented can be represented. -/
theorem Representable.neg {r : ℚ} (h : Representable r) : Representable (-r) := by
  obtain ⟨m, e, hm, hleast, hgreatest, rfl⟩ := h
  exact ⟨-m, e, by rwa [abs_neg], hleast, hgreatest, by push_cast; ring⟩

/-- Zero is a number, and so are the multiples of a power of two up to `2 ^ 53`. -/
theorem representable_of_le {m e : ℤ} (hm : |m| ≤ 2 ^ 53) (hleast : leastExponent ≤ e)
    (hgreatest : e < greatestExponent) : Representable (m * 2 ^ e) := by
  rcases hm.lt_or_eq with hlt | heq
  · exact ⟨m, e, hlt, hleast, hgreatest.le, rfl⟩
  · have hdouble : Representable (2 ^ 53 * 2 ^ e) := by
      refine ⟨2 ^ 52, e + 1, by norm_num, by omega, by omega, ?_⟩
      rw [zpow_add_one₀ (by norm_num)]
      push_cast
      ring
    rcases (abs_eq (by norm_num)).1 heq with rfl | rfl
    · push_cast
      exact hdouble
    · push_cast
      rw [neg_mul]
      exact hdouble.neg

namespace IsNearest

variable {q r : ℚ} {x : Binary64}

/-- Rounding goes the same way on both sides of zero. -/
theorem neg (h : IsNearest q x) : IsNearest (-q) x.neg := by
  have hdistance : ∀ r : ℚ, |-q - r| = |q - -r| := by
    intro r
    rw [← abs_neg]
    congr 1
    ring
  refine ⟨h.isNumber.neg, fun r hr => ?_, fun r hr hne heq => ?_⟩
  · rw [hdistance, hdistance, toRat_neg, neg_neg]
    exact h.nearest (-r) hr.neg
  · rw [hdistance, hdistance, toRat_neg, neg_neg] at heq
    rw [significand_neg]
    refine h.even (-r) hr.neg ?_ heq
    rintro heq
    rw [toRat_neg, ← heq, neg_neg] at hne
    exact hne rfl

/-- A number of the format is rounded to itself. -/
theorem toRat_eq (h : IsNearest q x) (hq : Representable q) : x.toRat = q := by
  have hzero : |q - x.toRat| ≤ |q - q| := h.nearest q hq
  rw [sub_self, abs_zero, abs_nonpos_iff, sub_eq_zero] at hzero
  exact hzero.symm

end IsNearest

/-! ### The grid on which a quotient is rounded -/

/-- The multiple of the unit that a quotient is rounded to is away from it by half a unit at most,
and is even if by just that. -/
theorem roundQuotient_spec (n : ℕ) {d : ℕ} (hd : 0 < d) :
    |(n : ℚ) / d - roundQuotient n d| ≤ 1 / 2 ∧
      (|(n : ℚ) / d - roundQuotient n d| = 1 / 2 → Even (roundQuotient n d)) := by
  have hd' : (0 : ℚ) < d := by exact_mod_cast hd
  have hsplit : (n : ℚ) / d = (n / d : ℕ) + (n % d : ℕ) / d := by
    rw [div_eq_iff hd'.ne', add_mul, div_mul_cancel₀ _ hd'.ne']
    exact_mod_cast (Nat.div_add_mod' n d).symm
  have hnonneg : (0 : ℚ) ≤ (n % d : ℕ) / d := by positivity
  have hlt : ((n % d : ℕ) : ℚ) / d < 1 := by
    rw [div_lt_one hd']
    exact_mod_cast Nat.mod_lt n hd
  unfold roundQuotient
  dsimp only
  rw [hsplit]
  split_ifs with hlow hhigh
  · have hhalf : ((n % d : ℕ) : ℚ) / d < 1 / 2 := by
      rw [div_lt_div_iff₀ hd' two_pos]
      exact_mod_cast (by omega : n % d * 2 < 1 * d)
    rw [add_sub_cancel_left, abs_of_nonneg hnonneg]
    exact ⟨hhalf.le, fun heq => absurd heq hhalf.ne⟩
  · have hhalf : 1 / 2 < ((n % d : ℕ) : ℚ) / d := by
      rw [div_lt_div_iff₀ two_pos hd']
      exact_mod_cast (by omega : 1 * d < n % d * 2)
    push_cast at hlt hhalf ⊢
    rw [add_sub_add_left_eq_sub, abs_of_neg (by linarith)]
    exact ⟨by linarith, fun heq => by linarith⟩
  · have hhalf : ((n % d : ℕ) : ℚ) / d = 1 / 2 := by
      rw [div_eq_div_iff hd'.ne' two_ne_zero]
      exact_mod_cast (by omega : n % d * 2 = 1 * d)
    rw [hhalf]
    rcases Nat.mod_two_eq_zero_or_one (n / d) with hparity | hparity
    · rw [hparity, add_zero, add_sub_cancel_left, abs_of_pos one_half_pos]
      exact ⟨le_rfl, fun _ => Nat.even_iff.2 hparity⟩
    · rw [hparity]
      push_cast
      rw [add_sub_add_left_eq_sub, abs_of_neg (by norm_num)]
      exact ⟨by norm_num, fun _ => Nat.even_iff.2 (by omega)⟩

/-- A quotient over a power of two, as a quotient. -/
theorem overPower_spec (n : ℕ) {d : ℕ} (hd : 0 < d) (e : ℤ) :
    0 < (overPower n d e).2 ∧
      ((overPower n d e).1 : ℚ) / (overPower n d e).2 = n / d / 2 ^ e := by
  cases e with
  | ofNat k =>
    refine ⟨Nat.mul_pos hd (Nat.pow_pos two_pos), ?_⟩
    simp only [overPower, Nat.pow_eq, Nat.cast_mul, Nat.cast_pow, Nat.cast_ofNat,
      Int.ofNat_eq_natCast, zpow_natCast]
    rw [div_div]
  | negSucc k =>
    refine ⟨hd, ?_⟩
    simp only [overPower, Nat.pow_eq, Nat.cast_mul, Nat.cast_pow, Nat.cast_ofNat, zpow_negSucc]
    rw [div_inv_eq_mul, div_mul_eq_mul_div]

/-- The greatest power of two that is not above a number. -/
theorem pow_log2_le {n : ℕ} (hn : 0 < n) : (2 : ℚ) ^ (n.log2 : ℤ) ≤ n := by
  rw [zpow_natCast]
  exact_mod_cast Nat.log2_self_le hn.ne'

/-- The next power of two is above it. -/
theorem lt_pow_log2 (n : ℕ) : (n : ℚ) < 2 ^ (n.log2 + 1 : ℤ) := by
  exact_mod_cast Nat.lt_log2_self (n := n)

/-- The lengths of two numbers tell their quotient up to a factor of four. -/
theorem quotient_between {n d : ℕ} (hn : 0 < n) (hd : 0 < d) :
    (2 : ℚ) ^ 52 * 2 ^ ((n.log2 : ℤ) - d.log2 - 53) ≤ n / d ∧
      (n : ℚ) / d < 2 ^ 54 * 2 ^ ((n.log2 : ℤ) - d.log2 - 53) := by
  have hd' : (0 : ℚ) < d := by exact_mod_cast hd
  have hpow : ∀ k : ℕ, (2 : ℚ) ^ k * 2 ^ ((n.log2 : ℤ) - d.log2 - 53) =
      2 ^ ((n.log2 : ℤ) - d.log2 + (k - 53)) := by
    intro k
    rw [← zpow_natCast, ← zpow_add₀ two_ne_zero]
    congr 1
    omega
  constructor
  · rw [le_div_iff₀ hd', hpow]
    calc (2 : ℚ) ^ ((n.log2 : ℤ) - d.log2 + ((52 : ℕ) - 53)) * d
        ≤ 2 ^ ((n.log2 : ℤ) - d.log2 + ((52 : ℕ) - 53)) * 2 ^ (d.log2 + 1 : ℤ) := by
          gcongr
          exact (lt_pow_log2 d).le
      _ = 2 ^ (n.log2 : ℤ) := by
          rw [← zpow_add₀ two_ne_zero]
          congr 1
          push_cast
          omega
      _ ≤ n := pow_log2_le hn
  · rw [div_lt_iff₀ hd', hpow]
    calc (n : ℚ) < 2 ^ (n.log2 + 1 : ℤ) := lt_pow_log2 n
      _ = 2 ^ ((n.log2 : ℤ) - d.log2 + ((54 : ℕ) - 53)) * 2 ^ (d.log2 : ℤ) := by
          rw [← zpow_add₀ two_ne_zero]
          congr 1
          push_cast
          omega
      _ ≤ 2 ^ ((n.log2 : ℤ) - d.log2 + ((54 : ℕ) - 53)) * d := by
          gcongr
          exact pow_log2_le hd

/-- On the grid of a positive quotient it is less than `2 ^ 53` units, and at least `2 ^ 52`
unless the grid is the finest one. -/
theorem exponentFor_spec {n d : ℕ} (hn : 0 < n) (hd : 0 < d) :
    (n : ℚ) / d < 2 ^ 53 * 2 ^ exponentFor n d ∧
      (exponentFor n d = leastExponent ∨ 2 ^ 52 * 2 ^ exponentFor n d ≤ (n : ℚ) / d) ∧
      leastExponent ≤ exponentFor n d := by
  obtain ⟨hlow, hhigh⟩ := quotient_between hn hd
  set low : ℤ := (n.log2 : ℤ) - d.log2 - 53 with hlowdef
  obtain ⟨hpos, hover⟩ := overPower_spec n hd low
  have hpos' : (0 : ℚ) < (overPower n d low).2 := by exact_mod_cast hpos
  have hcompare : Nat.pow 2 53 * (overPower n d low).2 ≤ (overPower n d low).1 ↔
      (2 : ℚ) ^ 53 * 2 ^ low ≤ n / d := by
    rw [← le_div_iff₀ (by positivity), ← hover, le_div_iff₀ hpos']
    norm_cast
  have hshape : exponentFor n d =
      max (if (2 : ℚ) ^ 53 * 2 ^ low ≤ n / d then low + 1 else low) leastExponent := by
    unfold exponentFor
    dsimp only
    simp only [← hlowdef, hcompare]
  obtain ⟨e, he, hbelow, habove⟩ : ∃ e : ℤ, exponentFor n d = max e leastExponent ∧
      (n : ℚ) / d < 2 ^ 53 * 2 ^ e ∧ (2 : ℚ) ^ 52 * 2 ^ e ≤ n / d := by
    refine ⟨_, hshape, ?_⟩
    split_ifs with hge
    · rw [zpow_add_one₀ two_ne_zero]
      constructor
      · linarith
      · linarith
    · exact ⟨lt_of_not_ge hge, hlow⟩
  rw [he]
  rcases le_total leastExponent e with hle | hle
  · rw [max_eq_left hle]
    exact ⟨hbelow, .inr habove, hle⟩
  · rw [max_eq_right hle]
    refine ⟨hbelow.trans_le ?_, .inl rfl, le_rfl⟩
    gcongr
    norm_num

/-- If a number is away from an integer by a half at most, it is away from the others by a half at
least. -/
theorem half_le_abs_sub {v : ℚ} {m : ℕ} (hhalf : |v - m| ≤ 1 / 2) (k : ℤ) :
    k = m ∨ 1 / 2 ≤ |v - k| := by
  by_cases hk : k = m
  · exact .inl hk
  · right
    have hone : (1 : ℚ) ≤ |(k : ℚ) - m| := by
      have := Int.one_le_abs (sub_ne_zero.2 hk)
      exact_mod_cast this
    have htriangle : |(k : ℚ) - m| ≤ |v - m| + |v - k| := by
      rw [abs_sub_comm v k, add_comm]
      simpa using abs_add_le ((k : ℚ) - v) (v - m)
    linarith

/-- The numbers of a finer grid are less than `2 ^ 52` units. -/
theorem mul_zpow_lt {k f e : ℤ} (hk : |k| < 2 ^ 53) (hlt : f < e) :
    (k : ℚ) * 2 ^ f < 2 ^ 52 * 2 ^ e := by
  have hbound : (k : ℚ) < 2 ^ 53 := by exact_mod_cast (le_abs_self k).trans_lt hk
  calc (k : ℚ) * 2 ^ f < 2 ^ 53 * 2 ^ f := by gcongr
    _ = 2 ^ 52 * 2 ^ (f + 1) := by
        rw [zpow_add_one₀ two_ne_zero]
        ring
    _ ≤ 2 ^ 52 * 2 ^ e := by
        gcongr
        · exact one_le_two
        · omega

/-- A multiple of a unit that a positive rational number is rounded to: on this grid the number has
53 bits, unless the grid is the finest one, and the multiple is away from it by half a unit at most,
and is even if by just that. -/
structure IsRounding (q : ℚ) (m : ℕ) (e : ℤ) : Prop where
  below : q < 2 ^ 53 * 2 ^ e
  full : e = leastExponent ∨ 2 ^ 52 * 2 ^ e ≤ q
  least : leastExponent ≤ e
  greatest : e < greatestExponent
  half : |q / 2 ^ e - m| ≤ 1 / 2
  even : |q / 2 ^ e - m| = 1 / 2 → Even m

namespace IsRounding

variable {q r : ℚ} {m : ℕ} {e : ℤ}

/-- What is nearest to a rational number on its grid is nearest to it among all numbers: those that
are not on the grid are less than `2 ^ 52` units. -/
theorem abs_sub_le_of_representable (h : IsRounding q m e) (hr : Representable r) :
    |q - m * 2 ^ e| ≤ |q - r| ∧
      (|q - r| = |q - m * 2 ^ e| → r = m * 2 ^ e ∨ |q / 2 ^ e - m| = 1 / 2) := by
  have hunit : (0 : ℚ) < 2 ^ e := by positivity
  have hscale : ∀ k : ℚ, |q - k * 2 ^ e| = 2 ^ e * |q / 2 ^ e - k| := by
    intro k
    rw [← abs_of_pos hunit, ← abs_mul, abs_of_pos hunit]
    congr 1
    field_simp
  obtain ⟨k, f, hk, hleast, _, rfl⟩ := hr
  rcases le_or_gt e f with hle | hlt
  · have hon : (k : ℚ) * 2 ^ f = (k * 2 ^ (f - e).toNat : ℤ) * 2 ^ e := by
      push_cast
      rw [mul_assoc, ← zpow_natCast, ← zpow_add₀ two_ne_zero, Int.toNat_of_nonneg (by omega),
        sub_add_cancel]
    rw [hon, hscale, hscale]
    rcases half_le_abs_sub h.half (k * 2 ^ (f - e).toNat) with heq | hfar
    · rw [heq]
      exact ⟨le_rfl, fun _ => .inl rfl⟩
    · refine ⟨mul_le_mul_of_nonneg_left (h.half.trans hfar) hunit.le, fun heq => .inr ?_⟩
      have hsame := mul_left_cancel₀ hunit.ne' heq
      exact le_antisymm h.half (hsame ▸ hfar)
  · -- A number between the multiples is below the least of them that has all bits.
    have hgrid : 2 ^ 52 * 2 ^ e ≤ q := h.full.resolve_left (by omega)
    have hnear : |q - m * 2 ^ e| ≤ |q - 2 ^ 52 * 2 ^ e| := by
      rcases half_le_abs_sub h.half (2 ^ 52) with heq | hfar
      · have heq' : (m : ℚ) = 2 ^ 52 := by exact_mod_cast heq.symm
        rw [heq']
      · rw [hscale, hscale]
        refine mul_le_mul_of_nonneg_left (h.half.trans ?_) hunit.le
        exact_mod_cast hfar
    have hsmall := mul_zpow_lt hk hlt
    have hstrict : |q - m * 2 ^ e| < |q - k * 2 ^ f| := by
      rw [abs_of_nonneg (by linarith : (0 : ℚ) ≤ q - 2 ^ 52 * 2 ^ e)] at hnear
      rw [abs_of_pos (by linarith : (0 : ℚ) < q - k * 2 ^ f)]
      linarith
    exact ⟨hstrict.le, fun heq => absurd heq hstrict.ne'⟩

/-- Rounded digits reach at most the next power of two. -/
theorem le_pow (h : IsRounding q m e) : m ≤ 2 ^ 53 := by
  have hunit : (0 : ℚ) < 2 ^ e := by positivity
  have hv : q / 2 ^ e < 2 ^ 53 := (div_lt_iff₀ hunit).2 h.below
  have hm : (m : ℚ) < 2 ^ 53 + 1 := by linarith [(abs_le.1 h.half).1]
  have : m < 2 ^ 53 + 1 := by exact_mod_cast hm
  omega

/-- They are full unless the exponent is the least one. -/
theorem pow_le (h : IsRounding q m e) : 2 ^ 52 ≤ m ∨ e = leastExponent := by
  refine h.full.symm.imp_left fun hge => ?_
  have hunit : (0 : ℚ) < 2 ^ e := by positivity
  have hv : 2 ^ 52 ≤ q / 2 ^ e := (le_div_iff₀ hunit).2 hge
  have hm : (2 : ℚ) ^ 52 < m + 1 := by linarith [(abs_le.1 h.half).2]
  have : 2 ^ 52 < m + 1 := by exact_mod_cast hm
  omega

/-- A number that is not very small is rounded by a part in `2 ^ 53` of it at most. -/
theorem abs_sub_le (h : IsRounding q m e) (hlow : 2 ^ (-1022 : ℤ) ≤ q) :
    2 ^ 53 * |q - m * 2 ^ e| ≤ q := by
  have hunit : (0 : ℚ) < 2 ^ e := by positivity
  have hbits : 2 ^ 52 * 2 ^ e ≤ q := by
    rcases h.full with heq | hge
    · refine le_trans (le_of_eq ?_) hlow
      rw [heq, leastExponent, ← zpow_natCast, ← zpow_add₀ two_ne_zero]
      norm_num
    · exact hge
  have hdistance : |q - m * 2 ^ e| ≤ 1 / 2 * 2 ^ e := by
    have hscale : q - m * 2 ^ e = (q / 2 ^ e - m) * 2 ^ e := by field_simp
    rw [hscale, abs_mul, abs_of_pos hunit]
    exact mul_le_mul_of_nonneg_right h.half hunit.le
  linarith

end IsRounding

/-! ### Rounded quotients -/

/-- The multiple of a unit as a number; with one bit more than a significand has it is one of the
next grid. -/
def onGrid (m : ℕ) (e : ℤ) : Binary64 :=
  if m = 2 ^ 53 then .finite false (2 ^ 52) (e + 1) else .finite false m e

/-- The value of a number on the grid of an exponent. -/
theorem toRat_onGrid (m : ℕ) (e : ℤ) : (onGrid m e).toRat = m * 2 ^ e := by
  unfold onGrid
  split_ifs with hcarry
  · rw [toRat, hcarry, zpow_add_one₀ two_ne_zero]
    simp only [signed, Bool.false_eq_true, if_false]
    push_cast
    ring
  · simp [toRat, signed]

/-- The multiple that is nearest on the grid makes the nearest number. -/
theorem IsRounding.isNearest {q : ℚ} {m : ℕ} {e : ℤ} (h : IsRounding q m e) :
    IsNearest q (onGrid m e) := by
  have hm := h.le_pow
  have hleast := h.least
  have hgreatest := h.greatest
  refine ⟨?_, fun r hr => ?_, fun r hr hne heq => ?_⟩
  · unfold onGrid
    split_ifs with hcarry
    · exact ⟨by norm_num, by omega, by omega, .inl le_rfl⟩
    · exact ⟨by omega, hleast, hgreatest.le, h.pow_le⟩
  · rw [toRat_onGrid]
    exact (h.abs_sub_le_of_representable hr).1
  · rw [toRat_onGrid] at hne heq
    have htie := ((h.abs_sub_le_of_representable hr).2 heq).resolve_left hne
    unfold onGrid
    split_ifs with hcarry
    · exact ⟨2 ^ 51, rfl⟩
    · exact h.even htie

/-- The number of the negative of a quotient is the negative of its number. -/
theorem ofQuotient_true (n d : ℕ) : ofQuotient true n d = (ofQuotient false n d).neg := by
  simp only [ofQuotient]
  split_ifs <;> rfl

/-- What a positive quotient below `2 ^ 1023` is rounded to. -/
theorem exists_isRounding {n d : ℕ} (hn : 0 < n) (hd : 0 < d) (hlt : (n : ℚ) / d < 2 ^ 1023) :
    ∃ m e, IsRounding ((n : ℚ) / d) m e ∧ ofQuotient false n d = onGrid m e := by
  obtain ⟨hbelow, hgrid, hleast⟩ := exponentFor_spec hn hd
  set e := exponentFor n d with he
  have hgreatest : e < greatestExponent := by
    rcases hgrid with heq | hge
    · rw [heq]
      decide
    · have hpow : (2 : ℚ) ^ (52 + e) < 2 ^ (1023 : ℤ) := by
        rw [zpow_add₀ two_ne_zero]
        exact_mod_cast hge.trans_lt hlt
      have : 52 + e < 1023 := (zpow_lt_zpow_iff_right₀ one_lt_two).1 hpow
      have hvalue : greatestExponent = 971 := rfl
      omega
  obtain ⟨hpos, hover⟩ := overPower_spec n hd e
  obtain ⟨hhalf, heven⟩ := roundQuotient_spec (overPower n d e).1 hpos
  rw [hover] at hhalf heven
  refine ⟨_, e, ⟨hbelow, hgrid, hleast, hgreatest, hhalf, heven⟩, ?_⟩
  have hcarry : Nat.pow 2 53 = 2 ^ 53 := rfl
  unfold ofQuotient onGrid
  rw [if_neg (by omega)]
  dsimp only
  rw [← he, hcarry]
  split_ifs with _ hover hover
  · dsimp only at hover
    omega
  · rfl
  · dsimp only at hover
    omega
  · rfl

/-- Zero is the number nearest to zero. -/
theorem isNearest_zero : IsNearest 0 (zero false) := by
  refine IsRounding.isNearest (m := 0) (e := leastExponent) ?_
  exact ⟨by positivity, .inl rfl, le_rfl, by decide, by norm_num, fun _ => Even.zero⟩

/-- A quotient is rounded to the nearest number. -/
theorem isNearest_ofQuotient (negative : Bool) (n : ℕ) {d : ℕ} (hd : 0 < d)
    (hlt : (n : ℚ) / d < 2 ^ 1023) :
    IsNearest (withSign negative (n / d)) (ofQuotient negative n d) := by
  have hpositive : IsNearest ((n : ℚ) / d) (ofQuotient false n d) := by
    rcases Nat.eq_zero_or_pos n with rfl | hn
    · have hzero : ofQuotient false 0 d = zero false := rfl
      rw [hzero, Nat.cast_zero, zero_div]
      exact isNearest_zero
    · obtain ⟨m, e, hrounding, hx⟩ := exists_isRounding hn hd hlt
      rw [hx]
      exact hrounding.isNearest
  cases negative with
  | false => exact hpositive
  | true =>
    rw [ofQuotient_true]
    exact hpositive.neg

namespace IsNearest

variable {q : ℚ} {x : Binary64}

/-- Unless it is very small, a rational number is rounded by a part in `2 ^ 53` of it at most. -/
theorem abs_sub_le (h : IsNearest q x) (hlow : 2 ^ (-1022 : ℤ) ≤ |q|) (hhigh : |q| < 2 ^ 1023) :
    2 ^ 53 * |q - x.toRat| ≤ |q| := by
  wlog hq : 0 ≤ q generalizing q x
  · have hneg := this h.neg (by rwa [abs_neg]) (by rwa [abs_neg]) (by linarith)
    have hsame : |-q - -x.toRat| = |q - x.toRat| := by rw [neg_sub_neg, abs_sub_comm]
    rwa [toRat_neg, hsame, abs_neg] at hneg
  · rw [abs_of_nonneg hq] at hlow hhigh ⊢
    have hleast : (0 : ℚ) < 2 ^ (-1022 : ℤ) := by positivity
    have hnum : 0 < q.num.toNat := by
      have := Rat.num_pos.2 (hleast.trans_le hlow)
      omega
    have hsplit : q = (q.num.toNat : ℚ) / q.den := by
      have hcast : ((q.num.toNat : ℤ) : ℚ) = q.num := by
        rw [Int.toNat_of_nonneg (Rat.num_nonneg.2 hq)]
      rw [← Int.cast_natCast, hcast, Rat.num_div_den]
    obtain ⟨m, e, hrounding, _⟩ := exists_isRounding hnum q.den_pos (hsplit ▸ hhigh)
    rw [← hsplit] at hrounding
    have hnear := h.nearest _ hrounding.isNearest.isNumber.representable
    rw [toRat_onGrid] at hnear
    linarith [hrounding.abs_sub_le hlow]

end IsNearest

/-! ### Very small rational numbers -/

/-- A number other than zero is at least as great as the least one. -/
theorem Representable.eq_zero_or_le {r : ℚ} (h : Representable r) :
    r = 0 ∨ 2 ^ leastExponent ≤ |r| := by
  obtain ⟨m, e, _, hleast, _, rfl⟩ := h
  by_cases hm : m = 0
  · simp [hm]
  · right
    have hone : (1 : ℚ) ≤ |(m : ℚ)| := by exact_mod_cast Int.one_le_abs hm
    have hunit : (2 : ℚ) ^ leastExponent ≤ 2 ^ e := zpow_le_zpow_right₀ one_le_two hleast
    rw [abs_mul, abs_of_pos (by positivity : (0 : ℚ) < 2 ^ e)]
    calc (2 : ℚ) ^ leastExponent ≤ 2 ^ e := hunit
      _ = 1 * 2 ^ e := (one_mul _).symm
      _ ≤ |(m : ℚ)| * 2 ^ e := by gcongr

/-- What is less than half of the least number is rounded to a zero. -/
theorem isNearest_iff_of_lt {q : ℚ} {x : Binary64} (hq : 2 * |q| < 2 ^ leastExponent) :
    IsNearest q x ↔ x.IsNumber ∧ x.toRat = 0 := by
  constructor
  · intro h
    have hzero : Representable 0 := ⟨0, 0, by norm_num, by decide, by decide, by simp⟩
    have hnear := h.nearest 0 hzero
    rw [sub_zero] at hnear
    refine ⟨h.isNumber, h.isNumber.representable.eq_zero_or_le.resolve_right fun hle => ?_⟩
    have htriangle : |x.toRat| ≤ |q| + |q - x.toRat| := by
      simpa [abs_sub_comm q] using abs_add_le q (x.toRat - q)
    linarith
  · rintro ⟨hnumber, hx⟩
    have hfar : ∀ r, Representable r → r = 0 ∨ |q| < |q - r| := by
      intro r hr
      refine hr.eq_zero_or_le.imp_right fun hle => ?_
      have htriangle : |r| ≤ |q| + |q - r| := by
        simpa [abs_sub_comm q] using abs_add_le q (r - q)
      linarith
    refine ⟨hnumber, fun r hr => ?_, fun r hr hne heq => ?_⟩
    · rw [hx, sub_zero]
      rcases hfar r hr with rfl | hlt
      · rw [sub_zero]
      · exact hlt.le
    · rw [hx] at hne
      rw [hx, sub_zero] at heq
      exact absurd heq ((hfar r hr).resolve_left hne).ne'

/-! ### Integers -/

/-- Integers are numbers up to `2 ^ 53`. -/
theorem representable_of_den_eq_one {q : ℚ} (hint : q.den = 1) (hle : |q| ≤ 2 ^ 53) :
    Representable q := by
  have hq : q = q.num := (Rat.coe_int_num_of_den_eq_one hint).symm
  have hnum : |q.num| ≤ 2 ^ 53 := by
    rw [hq] at hle
    exact_mod_cast hle
  have hgrid := representable_of_le hnum (e := 0) (by decide) (by decide)
  rwa [zpow_zero, mul_one, ← hq] at hgrid

/-- What is away from every integer by more than a part in `2 ^ 53` is not rounded to one. -/
theorem IsNearest.den_ne_one {q : ℚ} {x : Binary64} (h : IsNearest q x)
    (hlow : 2 ^ (-1022 : ℤ) ≤ |q|) (hhigh : |q| < 2 ^ 1023)
    (haway : ∀ i : ℤ, |q| < 2 ^ 53 * |q - i|) : x.toRat.den ≠ 1 := by
  intro hint
  have hnear := h.abs_sub_le hlow hhigh
  have hfar := haway x.toRat.num
  rw [Rat.coe_int_num_of_den_eq_one hint] at hfar
  exact absurd hnear (not_le.2 hfar)

/-- From `2 ^ 52` on every number is an integer, so that everything is rounded to one. -/
theorem IsNearest.den_eq_one {q : ℚ} {x : Binary64} (h : IsNearest q x) (hq : 2 ^ 52 ≤ |q|) :
    x.toRat.den = 1 := by
  wlog hpos : 0 ≤ q generalizing q x
  · have hneg := this h.neg (by rwa [abs_neg]) (by linarith)
    rwa [toRat_neg, Rat.den_neg_eq_den] at hneg
  · rw [abs_of_nonneg hpos] at hq
    have hlarge : 2 ^ 52 ≤ x.toRat := by
      have hnear := h.nearest (2 ^ 52)
        ⟨2 ^ 52, 0, by norm_num, by decide, by decide, by norm_num⟩
      by_contra hlt
      rw [not_le] at hlt
      rw [abs_of_pos (by linarith), abs_of_nonneg (by linarith)] at hnear
      linarith
    cases x with
    | nan | infinity => exact h.isNumber.elim
    | finite negative m e =>
      have hm : |signed negative m| < 2 ^ 53 := by
        rw [abs_signed]
        exact_mod_cast h.isNumber.1
      have he : 0 ≤ e := by
        by_contra hneg
        have hsmall := mul_zpow_lt hm (not_le.1 hneg)
        rw [zpow_zero, mul_one] at hsmall
        exact absurd hlarge (not_le.2 hsmall)
      obtain ⟨k, rfl⟩ := Int.eq_ofNat_of_zero_le he
      have hint : (Binary64.finite negative m k).toRat = (signed negative m * 2 ^ k : ℤ) := by
        rw [toRat, zpow_natCast]
        push_cast
        rfl
      rw [hint]
      exact Rat.den_intCast _

/-- A whole number times a power of two, as a quotient. -/
theorem timesPower_spec (m : ℕ) (e : ℤ) :
    0 < (timesPower m e).2 ∧ ((timesPower m e).1 : ℚ) / (timesPower m e).2 = m * 2 ^ e := by
  cases e with
  | ofNat k => exact ⟨one_pos, by simp [timesPower]⟩
  | negSucc k =>
    refine ⟨Nat.pow_pos two_pos, ?_⟩
    simp [timesPower, zpow_negSucc, div_eq_mul_inv]

/-- The value of a finite number as a quotient. -/
theorem toRat_finite (negative : Bool) (m : ℕ) (e : ℤ) :
    (Binary64.finite negative m e).toRat =
      (signed negative (timesPower m e).1 : ℚ) / (timesPower m e).2 := by
  have hvalue := (timesPower_spec m e).2
  cases negative with
  | false => simpa [toRat, signed] using hvalue.symm
  | true =>
    simp only [toRat, signed, if_true]
    push_cast
    rw [neg_mul, ← hvalue, neg_div]

/-- A sign before a product is a sign before its first factor. -/
theorem signed_mul (negative : Bool) (m k : ℕ) :
    signed negative (m * k) = signed negative m * k := by
  cases negative <;> simp [signed]

/-- The integer that a number equals, if it equals one. -/
theorem toInt?_eq {x : Binary64} (h : x.IsNumber) :
    x.toInt? = if x.toRat.den = 1 then some x.toRat.num else none := by
  cases x with
  | nan | infinity => exact h.elim
  | finite negative m e =>
    have hpos := (timesPower_spec m e).1
    rw [toRat_finite, toInt?]
    generalize timesPower m e = p at hpos
    obtain ⟨n, d⟩ := p
    dsimp only at hpos ⊢
    have hd : (d : ℤ) ≠ 0 := by exact_mod_cast hpos.ne'
    have hwhole : ((signed negative n : ℚ) / d).den = 1 ↔ n % d = 0 := by
      rw [← Nat.dvd_iff_mod_eq_zero, ← Int.cast_natCast d, Rat.den_div_intCast_eq_one_iff _ _ hd,
        ← Int.natCast_dvd_natCast, ← dvd_abs, abs_signed]
    by_cases hdvd : n % d = 0
    · obtain ⟨k, rfl⟩ := Nat.dvd_of_mod_eq_zero hdvd
      have hvalue : (signed negative (d * k) : ℚ) / d = signed negative k := by
        rw [Nat.mul_comm, signed_mul]
        push_cast
        exact mul_div_cancel_right₀ _ (by exact_mod_cast hd)
      rw [if_pos hdvd, if_pos (hwhole.2 hdvd), hvalue, Rat.num_intCast,
        Nat.mul_div_cancel_left k hpos]
      rfl
    · rw [if_neg hdvd, if_neg fun hone => hdvd (hwhole.1 hone)]

end ConfigAssembly.Binary64
