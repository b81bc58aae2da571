/-!
# Texts of codes

A text may hold halves of surrogate pairs, which are codes but no characters. A half is written as a
mark and a character for private use, and the mark itself twice, so that every list of codes is one
text. `codes_ofCodes` says that the codes are read back.
-/

namespace ConfigAssembly.Text

/-- The first code of the halves of surrogate pairs. -/
def firstHalf : Nat := 0xd800

/-- The first code after the halves of surrogate pairs. -/
def endHalves : Nat := 0xe000

/-- Whether a code is a half of a surrogate pair. -/
def isHalf (n : Nat) : Bool := firstHalf ≤ n && n < endHalves

/-- The mark before the character that stands for a half. -/
def halfMark : Char := Char.ofNat 0x10fffe

/-- The code of the character that stands for the first half. -/
def halfBase : Nat := 0x100000

/-- The characters that stand for a code. -/
def ofCode (n : Nat) : List Char :=
  if isHalf n then [halfMark, Char.ofNat (halfBase + (n - firstHalf))]
  else if n = halfMark.toNat then [halfMark, halfMark]
  else [Char.ofNat n]

/-- The characters that stand for codes. -/
def ofCodes (ns : List Nat) : List Char := ns.flatMap ofCode

/-- The code of the character after a mark. -/
def marked (c : Char) : Nat :=
  if c == halfMark then halfMark.toNat else firstHalf + (c.toNat - halfBase)

/-- The codes that characters stand for. -/
def codes : List Char → List Nat
  | [] => []
  | [c] => [c.toNat]
  | c :: d :: cs => if c == halfMark then marked d :: codes cs else c.toNat :: codes (d :: cs)

/-- Characters of codes. The two halves of a pair are put together; a half alone is replaced. -/
def characters : List Nat → List Char
  | [] => []
  | [n] => [if isHalf n then '\ufffd' else Char.ofNat n]
  | n :: m :: ns =>
    if firstHalf ≤ n ∧ n < firstHalf + 0x400 ∧ firstHalf + 0x400 ≤ m ∧ m < endHalves then
      Char.ofNat (0x10000 + (n - firstHalf) * 0x400 + (m - (firstHalf + 0x400))) :: characters ns
    else (if isHalf n then '\ufffd' else Char.ofNat n) :: characters (m :: ns)

/-- A text of characters as a text of codes. -/
def received (s : String) : String :=
  if s.contains halfMark then String.ofList (ofCodes (s.toList.map Char.toNat)) else s

/-- A text of codes as a text of characters. -/
def sent (s : String) : String :=
  if s.contains halfMark then String.ofList (characters (codes s.toList)) else s

/-- A code is that of a character, or a half. -/
def isCode (n : Nat) : Bool := n ≤ 0x10ffff

/-- The codes of halves of pairs, as bounds. -/
theorem isHalf_iff {n : Nat} : isHalf n ↔ 0xd800 ≤ n ∧ n < 0xe000 := by
  rw [isHalf, Bool.and_eq_true]
  exact and_congr decide_eq_true_iff decide_eq_true_iff

/-- The code of the character with a code that characters have. -/
theorem toNat_ofNat {n : Nat} (h : n.isValidChar) : (Char.ofNat n).toNat = n := by
  rw [Char.ofNat, dif_pos h]
  rfl

/-- A code that is not a half is the code of a character. -/
theorem toNat_ofNat_of_not_isHalf {n : Nat} (hn : isCode n) (h : ¬ isHalf n) :
    (Char.ofNat n).toNat = n := by
  refine toNat_ofNat ?_
  have hn : n ≤ 0x10ffff := by simpa [isCode] using hn
  rw [isHalf_iff] at h
  unfold Nat.isValidChar
  omega

/-- A half is read back from the character that stands for it. -/
theorem marked_ofNat {n : Nat} (h : isHalf n) :
    marked (Char.ofNat (halfBase + (n - firstHalf))) = n := by
  rw [isHalf_iff] at h
  have ht : (Char.ofNat (0x100000 + (n - 0xd800))).toNat = 0x100000 + (n - 0xd800) := by
    refine toNat_ofNat ?_
    unfold Nat.isValidChar
    omega
  have hne : Char.ofNat (0x100000 + (n - 0xd800)) ≠ halfMark := by
    intro e
    rw [e] at ht
    have hm : halfMark.toNat = 0x10fffe := rfl
    omega
  show marked (Char.ofNat (0x100000 + (n - 0xd800))) = n
  rw [marked, if_neg (by simpa using hne), ht]
  show 0xd800 + (0x100000 + (n - 0xd800) - 0x100000) = n
  omega

/-- The codes of a text are read back. -/
theorem codes_ofCodes {ns : List Nat} (h : ∀ n ∈ ns, isCode n) : codes (ofCodes ns) = ns := by
  induction ns with
  | nil => rfl
  | cons n ns ih =>
    have hn := h n List.mem_cons_self
    have ht := ih fun m hm => h m (List.mem_cons_of_mem n hm)
    have he : ofCodes (n :: ns) = ofCode n ++ ofCodes ns := rfl
    rw [he]
    unfold ofCode
    split <;> rename_i hh
    · simp [codes, marked_ofNat hh, ht]
    · split <;> rename_i hm
      · simp [codes, marked, ht, hm]
      · have hc : (Char.ofNat n).toNat = n := toNat_ofNat_of_not_isHalf hn hh
        have hne : Char.ofNat n ≠ halfMark := fun e => hm (by rw [← hc, e])
        cases hr : ofCodes ns with
        | nil =>
          rw [hr] at ht
          simp [codes, hc, ← ht]
        | cons d cs =>
          rw [hr] at ht
          simp [codes, hne, hc, ht]

end ConfigAssembly.Text
