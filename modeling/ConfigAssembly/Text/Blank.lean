/-!
# Blank characters

A property of characters is stored as the increasing list of code points at which it changes: a code
point has the property exactly when an odd number of boundaries lie at or below it.

White space in the sense of Unicode (bidirectional class B, S or WS, or category Zs), with trimming
and splitting. The narrower set that may surround a written number, `isFormatBlank`, holds only the
six blanks of ASCII.
-/

namespace ConfigAssembly.Text

/-! ### Sets of characters given by their boundaries -/

/-- The code points at which membership of a character set changes, in increasing order. -/
abbrev Boundaries := List Nat

/-- A code point belongs to the set when an odd number of boundaries lie at or below it. -/
def Boundaries.covers (bs : Boundaries) (n : Nat) : Bool :=
  (bs.takeWhile (· ≤ n)).length % 2 == 1

/-! ### White space -/

/-- Boundaries of the white-space characters. -/
def blankBoundaries : Boundaries := [
    0x9, 0xe, 0x1c, 0x21, 0x85, 0x86, 0xa0, 0xa1, 0x1680, 0x1681, 0x2000, 0x200b, 0x2028, 0x202a,
    0x202f, 0x2030, 0x205f, 0x2060, 0x3000, 0x3001]

/-- White space. -/
def isBlank (c : Char) : Bool := blankBoundaries.covers c.toNat

/-- The blanks of ASCII: space, tab, line feed, vertical tab, form feed and carriage return. -/
def isFormatBlank (c : Char) : Bool := c.toNat == 32 || (9 ≤ c.toNat && c.toNat ≤ 13)

/-- Drops the characters of a set from both ends. -/
def trimBy (p : Char → Bool) (cs : List Char) : List Char :=
  ((cs.dropWhile p).reverse.dropWhile p).reverse

/-- Drops white space from both ends. -/
def trim (s : String) : String := String.ofList (trimBy isBlank s.toList)

/-- Characters of the set on both sides of a text are dropped with those that it has itself. -/
theorem trimBy_append {p : Char → Bool} {before after : List Char} (core : List Char)
    (hbefore : ∀ c ∈ before, p c = true) (hafter : ∀ c ∈ after, p c = true) :
    trimBy p (before ++ core ++ after) = trimBy p core := by
  have hreverse : ∀ c ∈ after.reverse, p c = true := by simpa using hafter
  rw [trimBy, trimBy, List.append_assoc, List.dropWhile_append_of_pos hbefore,
    List.dropWhile_append]
  split
  · next hempty =>
    have hnone : (after ++ []).dropWhile p = [] := List.dropWhile_append_of_pos hafter
    rw [List.isEmpty_iff.1 hempty, ← List.append_nil after, hnone]
  · rw [List.reverse_append, List.dropWhile_append_of_pos hreverse]

/-- Nothing is dropped from a text without characters of the set. -/
theorem trimBy_of_forall {p : Char → Bool} {cs : List Char} (h : ∀ c ∈ cs, p c = false) :
    trimBy p cs = cs := by
  have hdrop : ∀ {ds : List Char}, (∀ d ∈ ds, p d = false) → ds.dropWhile p = ds := by
    intro ds hds
    cases ds with
    | nil => rfl
    | cons d ds => rw [List.dropWhile_cons_of_neg (by simp [hds d List.mem_cons_self])]
  rw [trimBy, hdrop h, hdrop (by simpa using h), List.reverse_reverse]

/-- The pieces between the characters of a set; there is always at least one piece. -/
def pieces (sep : Char → Bool) : List Char → List (List Char)
  | [] => [[]]
  | c :: cs =>
    if sep c then [] :: pieces sep cs
    else match pieces sep cs with
      | [] => [[c]]
      | p :: ps => (c :: p) :: ps

/-- There is at least one piece. -/
theorem pieces_ne_nil (sep : Char → Bool) (cs : List Char) : pieces sep cs ≠ [] := by
  cases cs with
  | nil => simp [pieces]
  | cons c cs =>
    unfold pieces
    split
    · simp
    · split <;> simp

/-- A text without separators is one piece. -/
theorem pieces_of_forall {sep : Char → Bool} {cs : List Char} (h : ∀ c ∈ cs, sep c = false) :
    pieces sep cs = [cs] := by
  induction cs with
  | nil => rfl
  | cons c cs ih =>
    have hc : sep c = false := h c List.mem_cons_self
    simp [pieces, hc, ih fun d hd => h d (List.mem_cons_of_mem c hd)]

/-- At a separator the pieces before and after it meet. -/
theorem pieces_append_cons {sep : Char → Bool} {s : Char} (hs : sep s = true) (a b : List Char) :
    pieces sep (a ++ s :: b) = pieces sep a ++ pieces sep b := by
  induction a with
  | nil => simp [pieces, hs]
  | cons c a ih =>
    by_cases hc : sep c = true
    · simp [pieces, hc, ih]
    · cases hp : pieces sep a with
      | nil => exact absurd hp (pieces_ne_nil sep a)
      | cons p ps => simp [pieces, hc, ih, hp]

/-- The items of a comma-separated text, trimmed, without the empty ones. -/
def commaItems (s : String) : List String :=
  ((pieces (· == ',') s.toList).map (trimBy isBlank)).filterMap fun p =>
    if p.isEmpty then none else some (String.ofList p)

/-- The items of a text in which commas and white space separate, without the empty ones. -/
def listItems (s : String) : List String :=
  (pieces (fun c => c == ',' || isBlank c) s.toList).filterMap fun p =>
    if p.isEmpty then none else some (String.ofList p)

end ConfigAssembly.Text
