import Mathlib
import ConfigAssembly.Proofs.Substitution.Round

/-!
# Templates and what they stand for

A template is a text with tokens as a tree: plain text, escapes, and tokens with or without a
fallback that is a template again. `Template.expand` gives it a meaning by recursion: the text that
it stands for, and the number of rounds in which one innermost token after the other reaches it.

* `Template.step` is one round of replacement as a function on templates: `round_shielded` says that
  `round` does just this to the text of a template, and `expand_step` that it keeps the text that
  the template stands for and takes one round off.
* `replaced_written`: the replacement of tokens in the text of a template gives the text that it
  stands for, if its rounds are not more than `rounds`.
-/

namespace ConfigAssembly.Substitution

/-! ### Templates -/

/-- A text none of whose characters means anything in a token. -/
structure Plain where
  /-- The characters. -/
  chars : List Char
  /-- No dollar, no brace and no shield is among them. -/
  clear : ∀ c ∈ chars, inBody c = true ∧ c ≠ shield

namespace Plain

variable (s : Plain)

/-- Plain characters may stand in a token. -/
theorem inBody_of_mem {c : Char} (h : c ∈ s.chars) : inBody c = true := (s.clear c h).1

/-- None of them is a dollar. -/
theorem ne_dollar_of_mem {c : Char} (h : c ∈ s.chars) : c ≠ '$' := by
  rintro rfl
  exact absurd (s.inBody_of_mem h) (by decide)

/-- None of them is the shield. -/
theorem shield_not_mem : shield ∉ s.chars := fun h => (s.clear shield h).2 rfl

/-- The shield of an escaped token comes off. -/
theorem unshield_escaped (cs : List Char) :
    unshield (shield :: (s.chars ++ closing :: cs)) =
      '$' :: '\x7b' :: (s.chars ++ closing :: unshield cs) := by
  have hs : unshield s.chars = s.chars := unshield_of_not_mem s.shield_not_mem
  calc unshield (shield :: (s.chars ++ closing :: cs))
      = unshield [shield] ++ unshield s.chars ++ unshield [closing] ++ unshield cs := by
        rw [← unshield_append, ← unshield_append, ← unshield_append]
        simp
    _ = opening ++ s.chars ++ [closing] ++ unshield cs := by
        rw [hs]
        rfl
    _ = _ := by simp [opening]

end Plain

/-- A key: a plain text without the separator of fallbacks. -/
structure Key extends Plain where
  /-- Nothing is cut off at a separator. -/
  whole : cut? [':', '-'] chars = none

/-- The text of a key. -/
def Key.name (k : Key) : String := String.ofList k.chars

namespace Key

variable (k : Key)

/-- A key, the separator and characters of a body are characters of a body. -/
theorem inBody_separated {s : List Char} (hs : ∀ c ∈ s, inBody c = true) :
    ∀ c ∈ k.chars ++ ':' :: '-' :: s, inBody c = true := by
  simp only [List.mem_append, List.mem_cons]
  rintro c (hc | rfl | rfl | hc)
  · exact k.inBody_of_mem hc
  · decide
  · decide
  · exact hs c hc

/-- A key, the separator and characters of a body are the body of a token. -/
theorem body?_separated {s : List Char} (hs : ∀ c ∈ s, inBody c = true) (rest : List Char) :
    body? (k.chars ++ ':' :: '-' :: (s ++ closing :: rest)) =
      some (k.chars ++ ':' :: '-' :: s, rest) := by
  simpa using body?_append_closing (k.inBody_separated hs) rest

/-- The key of a token without a fallback. -/
theorem keyOf_chars : keyOf k.chars = k.name := by
  simp [keyOf, k.whole, name]

/-- The key of a token with one. -/
theorem keyOf_separated (s : List Char) : keyOf (k.chars ++ ':' :: '-' :: s) = k.name := by
  simp [keyOf, cut?_append_separator k.whole, name]

end Key

/-- A template: its pieces one after the other. -/
inductive Template where
  | nil
  /-- A plain text. -/
  | text (s : Plain) (rest : Template)
  /-- An escaped token. -/
  | escape (body : Plain) (rest : Template)
  /-- A token without a fallback. -/
  | token (key : Key) (rest : Template)
  /-- A token with a fallback. -/
  | tokenOr (key : Key) (fallback rest : Template)

namespace Template

/-- The text of a template. -/
def written : Template → List Char
  | nil => []
  | text s rest => s.chars ++ rest.written
  | escape b rest => '$' :: '$' :: '\x7b' :: (b.chars ++ closing :: rest.written)
  | token k rest => '$' :: '\x7b' :: (k.chars ++ closing :: rest.written)
  | tokenOr k f rest =>
    '$' :: '\x7b' :: (k.chars ++ ':' :: '-' :: (f.written ++ closing :: rest.written))

/-- The text of a template with its escapes shielded. -/
def shielded : Template → List Char
  | nil => []
  | text s rest => s.chars ++ rest.shielded
  | escape b rest => shield :: (b.chars ++ closing :: rest.shielded)
  | token k rest => '$' :: '\x7b' :: (k.chars ++ closing :: rest.shielded)
  | tokenOr k f rest =>
    '$' :: '\x7b' :: (k.chars ++ ':' :: '-' :: (f.shielded ++ closing :: rest.shielded))

/-- One template after another. -/
def append : Template → Template → Template
  | nil, u => u
  | text s rest, u => text s (rest.append u)
  | escape b rest, u => escape b (rest.append u)
  | token k rest, u => token k (rest.append u)
  | tokenOr k f rest, u => tokenOr k f (rest.append u)

/-- The keys of the tokens of a template, also of those inside fallbacks. -/
def keys : Template → List Key
  | nil => []
  | text _ rest | escape _ rest => rest.keys
  | token k rest => k :: rest.keys
  | tokenOr k f rest => k :: (f.keys ++ rest.keys)

/-- The keys of a token and of what follows it. -/
theorem forall_keys_token {P : Key → Prop} {k : Key} {rest : Template} :
    (∀ k' ∈ (token k rest).keys, P k') ↔ P k ∧ ∀ k' ∈ rest.keys, P k' :=
  List.forall_mem_cons

/-- The keys of a token, of its fallback and of what follows it. -/
theorem forall_keys_tokenOr {P : Key → Prop} {k : Key} {f rest : Template} :
    (∀ k' ∈ (tokenOr k f rest).keys, P k') ↔
      P k ∧ (∀ k' ∈ f.keys, P k') ∧ ∀ k' ∈ rest.keys, P k' := by
  rw [keys, List.forall_mem_cons, List.forall_mem_append]

/-- A template without escapes and tokens. -/
def isLiteral : Template → Bool
  | nil => true
  | text _ rest => rest.isLiteral
  | _ => false

/-- Templates are written one after the other. -/
@[simp] theorem shielded_append (t u : Template) :
    (t.append u).shielded = t.shielded ++ u.shielded := by
  induction t <;> simp_all [append, shielded]

/-- So are their keys. -/
@[simp] theorem keys_append (t u : Template) : (t.append u).keys = t.keys ++ u.keys := by
  induction t <;> simp_all [append, keys]

/-- The shield is none of the characters that a template is written with. -/
private theorem shield_ne_mark :
    shield ≠ '$' ∧ shield ≠ '\x7b' ∧ shield ≠ closing ∧ shield ≠ ':' ∧ shield ≠ '-' := by
  decide

/-- The text of a template has no shield. -/
theorem shield_not_mem_written (t : Template) : shield ∉ t.written := by
  induction t with
  | nil => simp [written]
  | text s rest ih => simp [written, s.shield_not_mem, ih]
  | escape b rest ih => simp [written, shield_ne_mark, b.shield_not_mem, ih]
  | token k rest ih => simp [written, shield_ne_mark, k.shield_not_mem, ih]
  | tokenOr k f rest ihf ih => simp [written, shield_ne_mark, k.shield_not_mem, ihf, ih]

/-- Shielding meets the escapes of a template and nothing else. -/
theorem shieldEscapes_written (t : Template) (cs : List Char) :
    shieldEscapes (t.written ++ cs) = t.shielded ++ shieldEscapes cs := by
  induction t generalizing cs with
  | nil => rfl
  | text s rest ih =>
    rw [written, List.append_assoc, shieldEscapes_append fun _ => s.ne_dollar_of_mem, ih, shielded,
      List.append_assoc]
  | escape b rest ih =>
    have h := shieldEscapes_append (fun _ => b.ne_dollar_of_mem) (closing :: (rest.written ++ cs))
    rw [shieldEscapes_cons (by decide), ih] at h
    simp [written, shielded, shieldEscapes, h]
  | token k rest ih =>
    have h := shieldEscapes_append (fun _ => k.ne_dollar_of_mem) (closing :: (rest.written ++ cs))
    rw [shieldEscapes_cons (by decide), ih] at h
    simp [written, shielded, shieldEscapes_opening, h]
  | tokenOr k f rest ihf ih =>
    have h := shieldEscapes_append (fun _ => k.ne_dollar_of_mem)
      (':' :: '-' :: (f.written ++ closing :: (rest.written ++ cs)))
    rw [shieldEscapes_cons (by decide), shieldEscapes_cons (by decide), ihf,
      shieldEscapes_cons (by decide), ih] at h
    simp [written, shielded, shieldEscapes_opening, h]

/-! ### What a template stands for -/

end Template

/-- What a template stands for, and in how many rounds it is reached. -/
structure Expansion where
  /-- The text that the template stands for. -/
  text : List Char
  /-- The number of rounds. -/
  rounds : Nat

/-- An expansion with a text before it that takes some rounds of its own. -/
def Expansion.after (e : Expansion) (text : List Char) (rounds : Nat) : Expansion :=
  ⟨text ++ e.text, max rounds e.rounds⟩

/-- Texts in front of an expansion come together. -/
theorem Expansion.after_after (e : Expansion) (s t : List Char) (m n : Nat) :
    (e.after s m).after t n = e.after (t ++ s) (max n m) := by
  simp [Expansion.after, Nat.max_assoc]

/-- What keys stand for: a key that resolves stands for a template. -/
abbrev Meaning := Key → Option Template

namespace Template

/-- What a template stands for, given what its keys stand for. A token takes the rounds of its
fallback, one round, and the rounds of what its key stands for. -/
def expandWith (look : Key → Option Expansion) : Template → Expansion
  | nil => ⟨[], 0⟩
  | text s rest => (rest.expandWith look).after s.chars 0
  | escape b rest => (rest.expandWith look).after ('$' :: '\x7b' :: (b.chars ++ [closing])) 0
  | token k rest =>
    match look k with
    | some e => (rest.expandWith look).after e.text (1 + e.rounds)
    | none => (rest.expandWith look).after ('$' :: '\x7b' :: (k.chars ++ [closing])) 1
  | tokenOr k f rest =>
    match look k with
    | some e => (rest.expandWith look).after e.text ((f.expandWith look).rounds + 1 + e.rounds)
    | none =>
      (rest.expandWith look).after (f.expandWith look).text ((f.expandWith look).rounds + 1)

/-- What a template stands for, where keys stand for templates; look-ups are nested in one another
at most to a given depth. -/
def expand (m : Meaning) : Nat → Template → Expansion
  | 0 => expandWith fun _ => none
  | d + 1 => expandWith fun k => (m k).map (expand m d)

/-- There are no escapes, and every token has a fallback or a key that resolves. -/
def Settled (m : Meaning) : Template → Prop
  | nil => True
  | text _ rest => rest.Settled m
  | escape _ _ => False
  | token k rest => (m k).isSome ∧ rest.Settled m
  | tokenOr _ f rest => f.Settled m ∧ rest.Settled m

/-- Escapes, and tokens without a fallback whose key does not resolve, occur in no fallback. -/
def WellPlaced (m : Meaning) : Template → Prop
  | nil => True
  | text _ rest | escape _ rest | token _ rest => rest.WellPlaced m
  | tokenOr _ f rest => f.Settled m ∧ rest.WellPlaced m

/-- The keys of a template resolve to the texts of the templates that they stand for, which are
settled, and so do the keys of these templates in turn, until after at most a given number of steps
no key resolves. So no look-up comes back to itself. -/
def Grounded (sources : Sources) (event : Option Event) (m : Meaning) : Nat → Template → Prop
  | 0, t => ∀ k ∈ t.keys, m k = none ∧ lookup sources event k.name = .ok none
  | d + 1, t => ∀ k ∈ t.keys,
      lookup sources event k.name = .ok ((m k).map fun v => .str (String.ofList v.written)) ∧
      ∀ v ∈ m k, v.Settled m ∧ Grounded sources event m d v

instance decidableSettled (m : Meaning) : (t : Template) → Decidable (t.Settled m)
  | nil => .isTrue trivial
  | text _ rest => decidableSettled m rest
  | escape _ _ => .isFalse id
  | token k rest =>
    have := decidableSettled m rest
    inferInstanceAs (Decidable ((m k).isSome ∧ rest.Settled m))
  | tokenOr _ f rest =>
    have := decidableSettled m f
    have := decidableSettled m rest
    inferInstanceAs (Decidable (f.Settled m ∧ rest.Settled m))

instance decidableWellPlaced (m : Meaning) : (t : Template) → Decidable (t.WellPlaced m)
  | nil => .isTrue trivial
  | text _ rest | escape _ rest | token _ rest => decidableWellPlaced m rest
  | tokenOr _ f rest =>
    have := decidableWellPlaced m rest
    inferInstanceAs (Decidable (f.Settled m ∧ rest.WellPlaced m))

/-- One round of replacement: a token whose fallback is literal, or that has none, is replaced by
what its key stands for, else by its fallback, and without one it is escaped. -/
def step (m : Meaning) : Template → Template
  | nil => nil
  | text s rest => text s (rest.step m)
  | escape b rest => escape b (rest.step m)
  | token k rest =>
    match m k with
    | some v => v.append (rest.step m)
    | none => escape k.toPlain (rest.step m)
  | tokenOr k f rest =>
    if f.isLiteral then ((m k).getD f).append (rest.step m)
    else tokenOr k (f.step m) (rest.step m)

variable {m : Meaning}

/-- A settled template is well placed. -/
theorem Settled.wellPlaced {t : Template} (h : t.Settled m) : t.WellPlaced m := by
  induction t with
  | nil => trivial
  | text s rest ih => exact ih h
  | escape b rest ih => exact h.elim
  | token k rest ih => exact ih h.2
  | tokenOr k f rest ihf ih => exact ⟨h.1, ih h.2⟩

/-- Settled templates one after the other are settled. -/
theorem Settled.append {t u : Template} (ht : t.Settled m) (hu : u.Settled m) :
    (t.append u).Settled m := by
  induction t with
  | nil => exact hu
  | text s rest ih => exact ih ht
  | escape b rest ih => exact ht.elim
  | token k rest ih => exact ⟨ht.1, ih ht.2⟩
  | tokenOr k f rest ihf ih => exact ⟨ht.1, ih ht.2⟩

/-- A well-placed template after a settled one. -/
theorem Settled.append_wellPlaced {t u : Template} (ht : t.Settled m) (hu : u.WellPlaced m) :
    (t.append u).WellPlaced m := by
  induction t with
  | nil => exact hu
  | text s rest ih => exact ih ht
  | escape b rest ih => exact ht.elim
  | token k rest ih => exact ih ht.2
  | tokenOr k f rest ihf ih => exact ⟨ht.1, ih ht.2⟩

/-- Without escapes nothing is shielded. -/
theorem Settled.shielded_eq_written {t : Template} (h : t.Settled m) : t.shielded = t.written := by
  induction t with
  | nil => rfl
  | text s rest ih => rw [shielded, written, ih h]
  | escape b rest ih => exact h.elim
  | token k rest ih => rw [shielded, written, ih h.2]
  | tokenOr k f rest ihf ih => rw [shielded, written, ihf h.1, ih h.2]

/-- A literal template holds characters of a body only. -/
theorem inBody_of_isLiteral {t : Template} (h : t.isLiteral = true) :
    ∀ c ∈ t.shielded, inBody c = true := by
  induction t with
  | nil => simp [shielded]
  | text s rest ih =>
    intro c hc
    rcases List.mem_append.1 hc with hc | hc
    · exact s.inBody_of_mem hc
    · exact ih h c hc
  | escape | token | tokenOr => simp [isLiteral] at h

/-- The first token of a settled template is found behind characters of a body. -/
theorem Settled.exists_dollar {t : Template} (h : t.Settled m) (hl : t.isLiteral = false) :
    ∃ s rest, t.shielded = s ++ '$' :: rest ∧ ∀ c ∈ s, inBody c = true := by
  induction t with
  | nil => simp [isLiteral] at hl
  | text s rest ih =>
    obtain ⟨s', rest', he, hs'⟩ := ih h hl
    refine ⟨s.chars ++ s', rest', by rw [shielded, he, List.append_assoc], ?_⟩
    intro c hc
    rcases List.mem_append.1 hc with hc | hc
    · exact s.inBody_of_mem hc
    · exact hs' c hc
  | escape b rest ih => exact h.elim
  | token k rest ih => exact ⟨[], _, rfl, by simp⟩
  | tokenOr k f rest ihf ih => exact ⟨[], _, rfl, by simp⟩

/-! ### One round -/

/-- A token whose fallback holds a token is not innermost. -/
theorem body?_tokenOr_of_not_isLiteral (k : Key) {f : Template} (hf : f.Settled m)
    (hl : f.isLiteral = false) (rest : List Char) :
    body? (k.chars ++ ':' :: '-' :: (f.shielded ++ rest)) = none := by
  obtain ⟨s, rest', he, hs⟩ := hf.exists_dollar hl
  simpa [he] using body?_append_dollar (k.inBody_separated hs) (rest' ++ rest)

/-- A round of replacement in the text of a template is a step of the template. -/
theorem round_shielded {resolve : String → Option String} {t : Template} (ht : t.WellPlaced m)
    (hr : ∀ k ∈ t.keys, resolve k.name = (m k).map fun v => String.ofList v.written)
    (hs : ∀ k ∈ t.keys, ∀ v, m k = some v → v.Settled m) (cs : List Char) :
    round resolve false (t.shielded ++ cs) = (t.step m).shielded ++ round resolve false cs := by
  induction t generalizing cs with
  | nil => rfl
  | text s rest ih =>
    rw [shielded, List.append_assoc, round_append fun _ => s.ne_dollar_of_mem, ih ht hr hs, step,
      shielded, List.append_assoc]
  | escape b rest ih =>
    simp only [shielded, step, List.cons_append, List.append_assoc]
    rw [round_cons (by decide), round_append fun _ => b.ne_dollar_of_mem, round_cons (by decide),
      ih ht hr hs]
  | token k rest ih =>
    obtain ⟨hk, hr⟩ := forall_keys_token.1 hr
    obtain ⟨hsk, hs⟩ := forall_keys_token.1 hs
    have hrest := ih ht hr hs cs
    change resolve (String.ofList k.chars) = _ at hk
    simp only [shielded, step, List.cons_append, List.append_assoc]
    rw [round_opening_of_some (body?_append_closing (fun _ => k.inBody_of_mem) _), hrest,
      replacement_of_cut?_eq_none k.whole, hk]
    cases hm : m k with
    | none => simp [shielded]
    | some v => simp [(hsk v hm).shielded_eq_written]
  | tokenOr k f rest ihf ih =>
    obtain ⟨hk, hrf, hr⟩ := forall_keys_tokenOr.1 hr
    obtain ⟨hsk, hsf, hs⟩ := forall_keys_tokenOr.1 hs
    have hrest := ih ht.2 hr hs cs
    change resolve (String.ofList k.chars) = _ at hk
    simp only [shielded, step, List.cons_append, List.append_assoc]
    cases hl : f.isLiteral with
    | true =>
      rw [round_opening_of_some (k.body?_separated (inBody_of_isLiteral hl) _), hrest,
        replacement_append_separator k.whole, hk]
      cases hm : m k with
      | none => simp
      | some v => simp [(hsk v hm).shielded_eq_written]
    | false =>
      -- the opening stays, and the round goes on with the tokens of the fallback
      rw [round_opening_of_none (body?_tokenOr_of_not_isLiteral k ht.1 hl _),
        round_append fun _ => k.ne_dollar_of_mem, round_cons (by decide), round_cons (by decide),
        ihf ht.1.wellPlaced hrf hsf, round_cons (by decide), hrest]
      simp [shielded]

/-- Nothing goes wrong in a template whose keys resolve to texts or to nothing. -/
theorem fits_shielded {resolve : String → Except Fault (Option Value)} {t : Template}
    (ht : t.WellPlaced m) (hr : ∀ k ∈ t.keys, Succeeds (resolve k.name)) {cs : List Char}
    (hcs : Fits resolve cs) : Fits resolve (t.shielded ++ cs) := by
  induction t generalizing cs with
  | nil => exact hcs
  | text s rest ih =>
    rw [shielded, List.append_assoc]
    exact fits_append (fun _ => s.ne_dollar_of_mem) (ih ht hr hcs)
  | escape b rest ih =>
    simp only [shielded, List.cons_append, List.append_assoc]
    exact fits_cons (by decide)
      (fits_append (fun _ => b.ne_dollar_of_mem) (fits_cons (by decide) (ih ht hr hcs)))
  | token k rest ih =>
    obtain ⟨hk, hr⟩ := forall_keys_token.1 hr
    have hrest := ih ht hr hcs
    simp only [shielded, List.cons_append, List.append_assoc]
    refine fits_opening_of_some (body?_append_closing (fun _ => k.inBody_of_mem) _) ?_ hrest
    rw [k.keyOf_chars]
    exact hk
  | tokenOr k f rest ihf ih =>
    obtain ⟨hk, hrf, hr⟩ := forall_keys_tokenOr.1 hr
    have hrest := ih ht.2 hr hcs
    simp only [shielded, List.cons_append, List.append_assoc]
    cases hl : f.isLiteral with
    | true =>
      refine fits_opening_of_some (k.body?_separated (inBody_of_isLiteral hl) _) ?_ hrest
      rw [k.keyOf_separated]
      exact hk
    | false =>
      have hf := ihf ht.1.wellPlaced hrf (fits_cons (by decide : closing ≠ '$') hrest)
      exact fits_opening_of_none (body?_tokenOr_of_not_isLiteral k ht.1 hl _)
        (fits_append (fun _ => k.ne_dollar_of_mem)
          (fits_cons (by decide) (fits_cons (by decide) hf)))

/-! ### A step keeps what a template stands for -/

/-- A round keeps a template settled. -/
theorem Settled.step {t : Template} (ht : t.Settled m)
    (hs : ∀ k ∈ t.keys, ∀ v, m k = some v → v.Settled m) : (t.step m).Settled m := by
  induction t with
  | nil => trivial
  | text s rest ih => exact ih ht hs
  | escape b rest ih => exact ht.elim
  | token k rest ih =>
    obtain ⟨hk, hs⟩ := forall_keys_token.1 hs
    obtain ⟨v, hv⟩ := Option.isSome_iff_exists.1 ht.1
    rw [Template.step, hv]
    exact (hk v hv).append (ih ht.2 hs)
  | tokenOr k f rest ihf ih =>
    obtain ⟨hk, hsf, hs⟩ := forall_keys_tokenOr.1 hs
    have hrest := ih ht.2 hs
    rw [Template.step]
    split
    · cases hv : m k with
      | none => exact ht.1.append hrest
      | some v => exact (hk v hv).append hrest
    · exact ⟨ihf ht.1 hsf, hrest⟩

/-- A round keeps a template well placed. -/
theorem WellPlaced.step {t : Template} (ht : t.WellPlaced m)
    (hs : ∀ k ∈ t.keys, ∀ v, m k = some v → v.Settled m) : (t.step m).WellPlaced m := by
  induction t with
  | nil => trivial
  | text s rest ih => exact ih ht hs
  | escape b rest ih => exact ih ht hs
  | token k rest ih =>
    obtain ⟨hk, hs⟩ := forall_keys_token.1 hs
    have hrest := ih ht hs
    rw [Template.step]
    cases hv : m k with
    | none => exact hrest
    | some v => exact (hk v hv).append_wellPlaced hrest
  | tokenOr k f rest ihf ih =>
    obtain ⟨hk, hsf, hs⟩ := forall_keys_tokenOr.1 hs
    have hrest := ih ht.2 hs
    rw [Template.step]
    split
    · cases hv : m k with
      | none => exact ht.1.append_wellPlaced hrest
      | some v => exact (hk v hv).append_wellPlaced hrest
    · exact ⟨ht.1.step hsf, hrest⟩

/-- After a step the keys are old ones or those of a template that an old one stands for. -/
theorem mem_keys_step {t : Template} {k : Key} (h : k ∈ (t.step m).keys) :
    k ∈ t.keys ∨ ∃ k' ∈ t.keys, ∃ v, m k' = some v ∧ k ∈ v.keys := by
  induction t with
  | nil => simp [step, keys] at h
  | text s rest ih => exact ih h
  | escape b rest ih => exact ih h
  | token k₀ rest ih =>
    rw [step] at h
    cases hv : m k₀ with
    | none =>
      rw [hv] at h
      exact (ih h).imp (List.mem_cons_of_mem k₀) fun ⟨k', hk', hex⟩ =>
        ⟨k', List.mem_cons_of_mem k₀ hk', hex⟩
    | some v =>
      simp only [hv, keys_append, List.mem_append] at h
      rcases h with h | h
      · exact Or.inr ⟨k₀, List.mem_cons_self, v, hv, h⟩
      · exact (ih h).imp (List.mem_cons_of_mem k₀) fun ⟨k', hk', hex⟩ =>
          ⟨k', List.mem_cons_of_mem k₀ hk', hex⟩
  | tokenOr k₀ f rest ihf ih =>
    have hrest : k ∈ (rest.step m).keys → k ∈ (tokenOr k₀ f rest).keys ∨
        ∃ k' ∈ (tokenOr k₀ f rest).keys, ∃ v, m k' = some v ∧ k ∈ v.keys := fun h =>
      (ih h).imp (fun h => by simp [keys, h]) fun ⟨k', hk', hex⟩ => ⟨k', by simp [keys, hk'], hex⟩
    rw [step] at h
    split at h
    · rw [keys_append, List.mem_append] at h
      rcases h with h | h
      · cases hv : m k₀ with
        | none =>
          rw [hv] at h
          exact Or.inl (by simp [keys, show k ∈ f.keys from h])
        | some v =>
          rw [hv] at h
          exact Or.inr ⟨k₀, List.mem_cons_self, v, hv, h⟩
      · exact hrest h
    · simp only [keys, List.mem_cons, List.mem_append] at h
      rcases h with rfl | h | h
      · exact Or.inl List.mem_cons_self
      · exact (ihf h).imp (fun h => by simp [keys, h])
          fun ⟨k', hk', hex⟩ => ⟨k', by simp [keys, hk'], hex⟩
      · exact hrest h

/-- The meaning of a template depends on that of its keys only. -/
theorem expandWith_congr {look look' : Key → Option Expansion} {t : Template}
    (h : ∀ k ∈ t.keys, look k = look' k) : t.expandWith look = t.expandWith look' := by
  induction t with
  | nil => rfl
  | text s rest ih => rw [expandWith, expandWith, ih h]
  | escape b rest ih => rw [expandWith, expandWith, ih h]
  | token k rest ih =>
    obtain ⟨hk, h⟩ := forall_keys_token.1 h
    rw [expandWith, expandWith, hk, ih h]
  | tokenOr k f rest ihf ih =>
    obtain ⟨hk, hf, h⟩ := forall_keys_tokenOr.1 h
    rw [expandWith, expandWith, hk, ihf hf, ih h]

/-- Templates are expanded one after the other, in the rounds of the slower one. -/
theorem expandWith_append (look : Key → Option Expansion) (t u : Template) :
    (t.append u).expandWith look =
      (u.expandWith look).after (t.expandWith look).text (t.expandWith look).rounds := by
  induction t with
  | nil => simp [append, expandWith, Expansion.after]
  | text s rest ih =>
    rw [append, expandWith, ih, Expansion.after_after]
    simp [expandWith, Expansion.after]
  | escape b rest ih =>
    rw [append, expandWith, ih, Expansion.after_after]
    simp [expandWith, Expansion.after]
  | token k rest ih =>
    rw [append, expandWith, ih, expandWith]
    cases look k <;> simp [Expansion.after, Nat.max_assoc]
  | tokenOr k f rest ihf ih =>
    rw [append, expandWith, ih, expandWith]
    cases look k <;> simp [Expansion.after, Nat.max_assoc]

/-- Settled templates of no rounds are literal. -/
theorem Settled.rounds_eq_zero_iff {look : Key → Option Expansion} {t : Template}
    (h : t.Settled m) : (t.expandWith look).rounds = 0 ↔ t.isLiteral = true := by
  induction t with
  | nil => simp [expandWith, isLiteral]
  | text s rest ih => simpa [expandWith, isLiteral, Expansion.after] using ih h
  | escape b rest ih => exact h.elim
  | token k rest ih =>
    rw [expandWith]
    cases look k <;> simp [isLiteral, Expansion.after]
  | tokenOr k f rest ihf ih =>
    rw [expandWith]
    cases look k <;> simp [isLiteral, Expansion.after]

/-- A step keeps the text that a template stands for and takes one round off. -/
theorem expandWith_step {look : Key → Option Expansion} {t : Template} (ht : t.WellPlaced m)
    (hl : ∀ k ∈ t.keys, look k = (m k).map fun v => v.expandWith look) :
    (t.step m).expandWith look =
      ⟨(t.expandWith look).text, (t.expandWith look).rounds - 1⟩ := by
  induction t with
  | nil => rfl
  | text s rest ih =>
    rw [step, expandWith, ih ht hl, expandWith]
    simp [Expansion.after]
  | escape b rest ih =>
    rw [step, expandWith, ih ht hl, expandWith]
    simp [Expansion.after]
  | token k rest ih =>
    obtain ⟨hk, hl⟩ := forall_keys_token.1 hl
    have hrest := ih ht hl
    rw [step, expandWith, hk]
    cases m k with
    | none =>
      simp only [Option.map_none, expandWith, hrest, Expansion.after]
      congr 1
      omega
    | some v =>
      simp only [Option.map_some, expandWith_append, hrest, Expansion.after]
      congr 1
      omega
  | tokenOr k f rest ihf ih =>
    obtain ⟨hk, hlf, hl⟩ := forall_keys_tokenOr.1 hl
    have hrest := ih ht.2 hl
    have hf := ihf ht.1.wellPlaced hlf
    have hzero : (f.expandWith look).rounds = 0 ↔ f.isLiteral = true := ht.1.rounds_eq_zero_iff
    rw [step]
    split
    · rename_i hlit
      have hz := hzero.2 hlit
      rw [expandWith_append, hrest, expandWith, hk]
      cases m k with
      | none =>
        simp only [Option.getD_none, Option.map_none, Expansion.after, hz]
        congr 1
        omega
      | some v =>
        simp only [Option.getD_some, Option.map_some, Expansion.after, hz]
        congr 1
        omega
    · rename_i hlit
      have hz : (f.expandWith look).rounds ≠ 0 := fun h => hlit (hzero.1 h)
      rw [expandWith, hf, hrest, expandWith, hk]
      cases m k with
      | none =>
        simp only [Option.map_none, Expansion.after]
        congr 1
        omega
      | some v =>
        simp only [Option.map_some, Expansion.after]
        congr 1
        omega

/-- When no rounds are left, the text with its shields taken off is what the template stands for. -/
theorem unshield_shielded {look : Key → Option Expansion} {t : Template}
    (h : (t.expandWith look).rounds = 0) : unshield t.shielded = (t.expandWith look).text := by
  induction t with
  | nil => rfl
  | text s rest ih =>
    rw [expandWith] at h ⊢
    rw [shielded, unshield_append, unshield_of_not_mem s.shield_not_mem,
      ih (by simpa [Expansion.after] using h), Expansion.after]
  | escape b rest ih =>
    rw [expandWith] at h ⊢
    rw [shielded, b.unshield_escaped, ih (by simpa [Expansion.after] using h)]
    simp [Expansion.after]
  | token k rest ih =>
    rw [expandWith] at h
    split at h <;> simp [Expansion.after] at h
  | tokenOr k f rest ihf ih =>
    rw [expandWith] at h
    split at h <;> simp [Expansion.after] at h

/-! ### Texts that keys lead back to at most to a given depth -/

section Grounded

variable {sources : Sources} {event : Option Event} {d : Nat} {t : Template}

/-- The keys of a grounded template are looked up as the map says. -/
theorem Grounded.lookup_eq (h : t.Grounded sources event m d) {k : Key} (hk : k ∈ t.keys) :
    lookup sources event k.name = .ok ((m k).map fun v => .str (String.ofList v.written)) := by
  cases d with
  | zero =>
    obtain ⟨hm, hl⟩ := h k hk
    rw [hl, hm, Option.map_none]
  | succ d => exact (h k hk).1

/-- What they stand for is settled. -/
theorem Grounded.settled (h : t.Grounded sources event m d) {k : Key} (hk : k ∈ t.keys)
    {v : Template} (hv : m k = some v) : v.Settled m := by
  cases d with
  | zero =>
    have hm : m k = none := (h k hk).1
    rw [hv] at hm
    cases hm
  | succ d => exact ((h k hk).2 v hv).1

/-- It is looked up as it is written. -/
theorem Grounded.lookupText_eq (h : t.Grounded sources event m d) {k : Key} (hk : k ∈ t.keys) :
    lookupText sources event k.name = (m k).map fun v => String.ofList v.written := by
  rw [lookupText_of_lookup (h.lookup_eq hk), Option.map_map]
  rfl

/-- One more step is allowed as well. -/
theorem Grounded.succ (h : t.Grounded sources event m d) : t.Grounded sources event m (d + 1) := by
  induction d generalizing t with
  | zero =>
    intro k hk
    obtain ⟨hm, hl⟩ := h k hk
    refine ⟨by rw [hl, hm, Option.map_none], fun v hv => ?_⟩
    rw [hm] at hv
    cases hv
  | succ d ih =>
    intro k hk
    refine ⟨(h k hk).1, fun v hv => ?_⟩
    obtain ⟨hs, hg⟩ := (h k hk).2 v hv
    exact ⟨hs, ih hg⟩

/-- A deeper look-up finds nothing else. -/
theorem expand_succ (h : t.Grounded sources event m d) : t.expand m (d + 1) = t.expand m d := by
  induction d generalizing t with
  | zero =>
    refine expandWith_congr fun k hk => ?_
    rw [(h k hk).1, Option.map_none]
  | succ d ih =>
    refine expandWith_congr fun k hk => ?_
    cases hv : m k with
    | none => rfl
    | some v => rw [Option.map_some, Option.map_some, ih ((h k hk).2 v hv).2]

/-- The keys that a step leaves in a template lead no deeper. -/
theorem Grounded.step (h : t.Grounded sources event m d) :
    (t.step m).Grounded sources event m d := by
  cases d with
  | zero =>
    intro k hk
    rcases mem_keys_step hk with hk | ⟨k', hk', v, hv, _⟩
    · exact h k hk
    · rw [(h k' hk').1] at hv
      cases hv
  | succ d =>
    intro k hk
    rcases mem_keys_step hk with hk | ⟨k', hk', v, hv, hkv⟩
    · exact h k hk
    · exact ((h k' hk').2 v hv).2.succ k hkv

/-- A step keeps the text that a template stands for and takes one round off. -/
theorem expand_step (ht : t.WellPlaced m) (h : t.Grounded sources event m d) :
    (t.step m).expand m d = ⟨(t.expand m d).text, (t.expand m d).rounds - 1⟩ := by
  cases d with
  | zero =>
    refine expandWith_step ht fun k hk => ?_
    rw [(h k hk).1, Option.map_none]
  | succ d =>
    refine expandWith_step ht fun k hk => ?_
    cases hv : m k with
    | none => rfl
    | some v =>
      have he : v.expand m (d + 1) = v.expand m d := expand_succ ((h k hk).2 v hv).2
      exact congrArg some he.symm

/-- Enough rounds of replacement lead to the text that a template stands for. -/
theorem unshield_replaceRounds_shielded (ht : t.WellPlaced m) (h : t.Grounded sources event m d)
    {n : Nat} (hn : (t.expand m d).rounds ≤ n) :
    unshield (replaceRounds (lookupText sources event) n t.shielded) = (t.expand m d).text := by
  induction n generalizing t with
  | zero =>
    have hz : (t.expand m d).rounds = 0 := Nat.le_zero.1 hn
    cases d <;> exact unshield_shielded hz
  | succ n ih =>
    have hround := round_shielded ht (fun _ => h.lookupText_eq) (fun _ hk _ => h.settled hk) []
    have hstep := expand_step ht h
    rw [List.append_nil, round_nil, List.append_nil] at hround
    rw [replaceRounds, hround, ih (ht.step fun _ hk _ => h.settled hk) h.step, hstep]
    rw [hstep]
    exact Nat.sub_le_of_le_add hn

/-- Nothing goes wrong with the tokens that come up in a template. -/
theorem misfitWithin_shielded (ht : t.WellPlaced m) (h : t.Grounded sources event m d) (n : Nat) :
    misfitWithin (lookup sources event) n t.shielded = none := by
  induction n generalizing t with
  | zero => rfl
  | succ n ih =>
    have hround := round_shielded ht (fun _ => h.lookupText_eq) (fun _ hk _ => h.settled hk) []
    rw [List.append_nil, round_nil, List.append_nil] at hround
    have hfits : Fits (lookup sources event) (t.shielded ++ []) := by
      refine fits_shielded ht (fun k hk => ?_) fits_nil
      rw [h.lookup_eq hk]
      exact succeeds_map_str (m k) _
    rw [List.append_nil] at hfits
    rw [misfitWithin_succ hfits]
    have hnext := ih (ht.step fun _ hk _ => h.settled hk) h.step
    rw [← hround] at hnext
    exact hnext

end Grounded

/-- The replacement of tokens in the text of a template gives the text that it stands for, where
escapes and tokens without a value and a fallback stand in no fallback, keys lead to settled
templates and not back to themselves, and the rounds suffice. -/
theorem replaced_written (sources : Sources) (event : Option Event) (m : Meaning) (d : Nat)
    (t : Template) (ht : t.WellPlaced m) (hg : t.Grounded sources event m d)
    (hr : (t.expand m d).rounds ≤ rounds) :
    sources.replaced event (String.ofList t.written) = .ok (String.ofList (t.expand m d).text) := by
  have hshield : shieldEscapes t.written = t.shielded := by
    simpa [shieldEscapes] using shieldEscapes_written t []
  have hfits := misfitWithin_shielded ht hg rounds
  rw [← hshield] at hfits
  rw [replaced_ofList t.shield_not_mem_written hfits, hshield,
    unshield_replaceRounds_shielded ht hg hr]

/-- The replacement goes through an escape, a token without a value, and a fallback with a key whose
value has a fallback of its own. -/
theorem replaced_written_nested :
    Sources.replaced ⟨[(.str "a", .str "$\x7bb:-x\x7dy")], .given []⟩ none
      "$$\x7be\x7d-$\x7bu\x7d$\x7bz:-$\x7ba\x7d\x7d" = .ok "$\x7be\x7d-$\x7bu\x7dxy" := by
  let a : Key := ⟨⟨['a'], by simp [inBody, shield]⟩, rfl⟩
  let b : Key := ⟨⟨['b'], by simp [inBody, shield]⟩, rfl⟩
  let u : Key := ⟨⟨['u'], by simp [inBody, shield]⟩, rfl⟩
  let z : Key := ⟨⟨['z'], by simp [inBody, shield]⟩, rfl⟩
  let x : Plain := ⟨['x'], by simp [inBody, shield]⟩
  let y : Plain := ⟨['y'], by simp [inBody, shield]⟩
  let e : Plain := ⟨['e'], by simp [inBody, shield]⟩
  let dash : Plain := ⟨['-'], by simp [inBody, shield]⟩
  let value := tokenOr b (text x nil) (text y nil)
  let m : Meaning := fun k => if k.chars = a.chars then some value else none
  let t := escape e (text dash (token u (tokenOr z (token a nil) nil)))
  have hvalue : value.Grounded ⟨[(.str "a", .str "$\x7bb:-x\x7dy")], .given []⟩ none m 0 := by
    intro k hk
    obtain rfl : k = b := List.mem_singleton.1 hk
    exact ⟨rfl, by cbv⟩
  have ht : t.Grounded ⟨[(.str "a", .str "$\x7bb:-x\x7dy")], .given []⟩ none m 1 := by
    intro k hk
    obtain rfl | rfl | rfl : k = u ∨ k = z ∨ k = a := by simpa [t, keys] using hk
    · exact ⟨by cbv, fun v hv => by cases hv⟩
    · exact ⟨by cbv, fun v hv => by cases hv⟩
    · refine ⟨by cbv, fun v hv => ?_⟩
      obtain rfl : value = v := Option.some.inj hv
      exact ⟨by decide, hvalue⟩
  exact replaced_written ⟨[(.str "a", .str "$\x7bb:-x\x7dy")], .given []⟩ none m 1 t (by decide) ht
    (by decide)

end Template
end ConfigAssembly.Substitution
