import ConfigAssembly.Proofs.Substitution.Template

/-!
# Text outside tokens

A passage is a sequence of literal segments and of tokens whose keys resolve to literal text. One
round of replacement puts the values in the place of the tokens (`Passage.round_written`), and no
other round finds anything to do. What happens to the text outside tokens is left to unshielding: an
opening takes the place of every shield, also of those that stood in a segment or in a value.
`Passage.replaced_rendered` gives the text that comes out, and says that it is the sequence with
each token replaced by its value just if there is no token or no such shield.
-/

namespace ConfigAssembly.Substitution

/-! ### Shields -/

/-- A text is the same without its shields just if it has none. -/
theorem unshield_eq_self_iff {cs : List Char} : unshield cs = cs ↔ shield ∉ cs := by
  refine ⟨fun h hmem => ?_, unshield_of_not_mem⟩
  -- Every character makes one at least, and a shield makes two.
  have hlength : ∀ cs : List Char, cs.length + cs.count shield = (unshield cs).length := by
    intro cs
    induction cs with
    | nil => rfl
    | cons c cs ih =>
      have hcons : unshield (c :: cs) = unshield [c] ++ unshield cs := unshield_append [c] cs
      rw [hcons, List.length_append, ← ih, List.length_cons, List.count_cons]
      by_cases hc : c = shield
      · simp [unshield, hc, opening]
        omega
      · simp [unshield, hc]
        omega
  have hcount : 0 < cs.count shield := List.count_pos_iff.2 hmem
  have hwhole := hlength cs
  rw [h] at hwhole
  omega

/-! ### Passages -/

/-- A text without a dollar or a brace. Any other character may be in it, also the shield. -/
structure Literal where
  /-- The characters. -/
  chars : List Char
  /-- Each of them may stand in the body of a token. -/
  inBody_of_mem : ∀ c ∈ chars, inBody c = true

/-- None of the characters is a dollar. -/
theorem Literal.ne_dollar_of_mem (s : Literal) {c : Char} (h : c ∈ s.chars) : c ≠ '$' := by
  rintro rfl
  exact absurd (s.inBody_of_mem _ h) (by decide)

/-- Literal segments and tokens without a fallback, in any order. -/
inductive Passage where
  | nil
  | literal (s : Literal) (rest : Passage)
  | token (key : Key) (rest : Passage)

namespace Passage

/-- The text of a passage. -/
def written : Passage → List Char
  | nil => []
  | literal s rest => s.chars ++ rest.written
  | token k rest => '$' :: '\x7b' :: (k.chars ++ closing :: rest.written)

/-- The text of a passage with a value in the place of each token. -/
def rendered (value : Key → Literal) : Passage → List Char
  | nil => []
  | literal s rest => s.chars ++ rest.rendered value
  | token k rest => (value k).chars ++ rest.rendered value

/-- The keys of the tokens. -/
def keys : Passage → List Key
  | nil => []
  | literal _ rest => rest.keys
  | token k rest => k :: rest.keys

/-- The keys of the tokens resolve to given values. -/
def Resolves (sources : Sources) (event : Option Event) (value : Key → Literal) (p : Passage) :
    Prop :=
  ∀ k ∈ p.keys, lookup sources event k.name = .ok (some (.str (String.ofList (value k).chars)))

section Reading

variable {sources : Sources} {event : Option Event} {value : Key → Literal}

/-- The texts of the keys are those of the values. -/
theorem Resolves.lookupText_eq {p : Passage} (h : p.Resolves sources event value) {k : Key}
    (hk : k ∈ p.keys) :
    lookupText sources event (String.ofList k.chars) = some (String.ofList (value k).chars) :=
  lookupText_of_lookup (h k hk)

/-- The first key resolves to its value. -/
theorem Resolves.head {k : Key} {rest : Passage} (h : (token k rest).Resolves sources event value) :
    lookup sources event k.name = .ok (some (.str (String.ofList (value k).chars))) :=
  h k List.mem_cons_self

/-- The other keys resolve to theirs. -/
theorem Resolves.tail {k : Key} {rest : Passage} (h : (token k rest).Resolves sources event value) :
    rest.Resolves sources event value :=
  fun k' hk' => h k' (List.mem_cons_of_mem k hk')

/-- Nothing in a passage is escaped. -/
theorem shieldEscapes_written (p : Passage) : shieldEscapes p.written = p.written := by
  induction p with
  | nil => rfl
  | literal s rest ih => rw [written, shieldEscapes_append fun _ => s.ne_dollar_of_mem, ih]
  | token k rest ih =>
    rw [written, shieldEscapes_opening, shieldEscapes_append fun _ => k.ne_dollar_of_mem,
      shieldEscapes_cons (by decide), ih]

/-- Characters other than dollars begin no token. -/
theorem hasOpening_append {s : List Char} (hs : ∀ c ∈ s, c ≠ '$') (cs : List Char) :
    hasOpening (s ++ cs) = hasOpening cs := by
  induction s with
  | nil => rfl
  | cons c s ih =>
    have hc : c ≠ '$' := hs c List.mem_cons_self
    rw [List.cons_append, hasOpening, ih fun d hd => hs d (List.mem_cons_of_mem c hd)]
    simp [opening, hc.symm]

/-- There is an opening just if there is a token. -/
theorem hasOpening_written (p : Passage) : hasOpening p.written = !p.keys.isEmpty := by
  induction p with
  | nil => rfl
  | literal s rest ih => rw [written, hasOpening_append fun _ => s.ne_dollar_of_mem, ih, keys]
  | token k rest ih => simp [written, hasOpening, opening, keys]

/-- Without tokens, a passage stands as it is written. -/
theorem rendered_eq_written {p : Passage} (h : p.keys.isEmpty = true) :
    p.rendered value = p.written := by
  induction p with
  | nil => rfl
  | literal s rest ih => rw [rendered, written, ih h]
  | token k rest ih => cases h

/-- Nor is any in what a passage is rendered as. -/
theorem no_dollar_rendered (p : Passage) : ∀ c ∈ p.rendered value, c ≠ '$' := by
  induction p with
  | nil => exact List.forall_mem_nil _
  | literal s rest ih =>
    intro c hc
    exact (List.mem_append.1 hc).elim s.ne_dollar_of_mem (ih c)
  | token k rest ih =>
    intro c hc
    exact (List.mem_append.1 hc).elim (value k).ne_dollar_of_mem (ih c)

/-- One round replaces each token by its value and leaves the segments alone. -/
theorem round_written {p : Passage} (h : p.Resolves sources event value) :
    round (lookupText sources event) false p.written = p.rendered value := by
  induction p with
  | nil => exact round_nil false
  | literal s rest ih =>
    rw [written, rendered, round_append fun _ => s.ne_dollar_of_mem, ih h]
  | token k rest ih =>
    have hbody : body? (k.chars ++ closing :: rest.written) = some (k.chars, rest.written) :=
      body?_append_closing (fun _ => k.inBody_of_mem) rest.written
    rw [written, rendered, round_opening_of_some hbody, replacement_of_cut?_eq_none k.whole,
      h.lookupText_eq List.mem_cons_self, ih h.tail]
    simp

/-- Every token stands for a text. -/
theorem fits_written {p : Passage} (h : p.Resolves sources event value) :
    Fits (lookup sources event) p.written := by
  induction p with
  | nil => exact fits_nil
  | literal s rest ih => exact fits_append (fun _ => s.ne_dollar_of_mem) (ih h)
  | token k rest ih =>
    have hbody : body? (k.chars ++ closing :: rest.written) = some (k.chars, rest.written) :=
      body?_append_closing (fun _ => k.inBody_of_mem) rest.written
    refine fits_opening_of_some hbody ?_ (ih h.tail)
    rw [k.keyOf_chars]
    exact Or.inr ⟨_, h.head⟩

/-- All rounds together do what the first one does. -/
theorem replaceRounds_written {p : Passage} (h : p.Resolves sources event value) (n : Nat) :
    replaceRounds (lookupText sources event) (n + 1) p.written = p.rendered value := by
  rw [replaceRounds, round_written h, replaceRounds_of_no_dollar p.no_dollar_rendered]

/-- Nothing goes wrong in them. -/
theorem misfitWithin_written {p : Passage} (h : p.Resolves sources event value) (n : Nat) :
    misfitWithin (lookup sources event) (n + 1) p.written = none := by
  rw [misfitWithin_succ (fits_written h)]
  change misfitWithin _ n (round (lookupText sources event) false _) = none
  rw [round_written h]
  exact misfitWithin_of_no_dollar p.no_dollar_rendered n

/-- What comes out of a passage with tokens: the sequence with each token replaced by its value, and
with an opening in the place of each shield. -/
theorem replaced_of_keys {p : Passage} (h : p.Resolves sources event value)
    (hkeys : p.keys.isEmpty = false) :
    sources.replaced event (String.ofList p.written) =
      .ok (String.ofList (unshield (p.rendered value))) := by
  have hmisfit : misfitWithin (lookup sources event) rounds p.written = none :=
    misfitWithin_written h 7
  have hrounds : replaceRounds (lookupText sources event) rounds p.written = p.rendered value :=
    replaceRounds_written h 7
  unfold Sources.replaced Sources.misfit Sources.replace expand
  rw [String.toList_ofList, shieldEscapes_written, hmisfit, hrounds, hasOpening_written, hkeys]
  rfl

/-- A passage without tokens is left as it is. -/
theorem replaced_of_no_keys (sources : Sources) (event : Option Event) {p : Passage}
    (hkeys : p.keys.isEmpty = true) :
    sources.replaced event (String.ofList p.written) = .ok (String.ofList p.written) := by
  have hopening : hasOpening p.written = false := by rw [hasOpening_written, hkeys]; rfl
  have hround : ∀ n, misfitWithin (lookup sources event) n p.written = none := by
    have hresolves : p.Resolves sources event fun _ => ⟨[], List.forall_mem_nil _⟩ := by
      rw [Resolves, List.isEmpty_iff.1 hkeys]
      exact List.forall_mem_nil _
    intro n
    cases n with
    | zero => rfl
    | succ n => exact misfitWithin_written hresolves n
  unfold Sources.replaced Sources.misfit Sources.replace expand
  rw [String.toList_ofList, shieldEscapes_written, hround, hopening]
  rfl

end Reading

/-- The replacement in a passage whose keys resolve to literal text gives the sequence with each
token replaced by its value, where an opening stands in the place of each shield if there is any
token. So segments and values come out as they are just if there is no token, or if no segment and
no value has a shield. -/
theorem replaced_rendered (sources : Sources) (event : Option Event) (value : Key → Literal)
    (p : Passage) (h : p.Resolves sources event value) :
    sources.replaced event (String.ofList p.written) =
        .ok (String.ofList
          (if p.keys.isEmpty then p.rendered value else unshield (p.rendered value))) ∧
      (sources.replaced event (String.ofList p.written) = .ok (String.ofList (p.rendered value)) ↔
        p.keys = [] ∨ shield ∉ p.rendered value) := by
  cases hkeys : p.keys.isEmpty with
  | true =>
    rw [replaced_of_no_keys sources event hkeys, rendered_eq_written hkeys]
    exact ⟨rfl, fun _ => .inl (List.isEmpty_iff.1 hkeys), fun _ => rfl⟩
  | false =>
    have hne : p.keys ≠ [] := by
      rw [← List.isEmpty_eq_false_iff]
      exact hkeys
    rw [replaced_of_keys h hkeys, ← unshield_eq_self_iff]
    refine ⟨rfl, fun he => .inr (String.ofList_injective (Except.ok.inj he)), ?_⟩
    rintro (he | he)
    · exact absurd he hne
    · rw [he]

/-- The key of a variable. -/
private def home : Key := ⟨⟨['e', 'n', 'v', ':', 'H'], by simp [inBody, shield]⟩, rfl⟩

/-- A value with a control character. -/
private def path : Literal := ⟨['/', '\x01'], by simp [inBody]⟩

/-- A control character in a segment and one in the value of a variable come out as they are. -/
theorem replaced_rendered_control :
    Sources.replaced ⟨[], .given [("H", .str "/\x01")]⟩ none "\t$\x7benv:H\x7d\n" =
      .ok "\t/\x01\n" := by
  let p : Passage := literal ⟨['\t'], by simp [inBody]⟩
    (token home (literal ⟨['\n'], by simp [inBody]⟩ nil))
  have hresolves : p.Resolves ⟨[], .given [("H", .str "/\x01")]⟩ none fun _ => path := by
    intro k hk
    obtain rfl : k = home := List.mem_singleton.1 hk
    cbv
  exact (replaced_rendered _ none (fun _ => path) p hresolves).2.2 (Or.inr (by decide))

/-- A shield in a segment comes out as an opening. -/
theorem not_forall_replaced_rendered :
    ¬ ∀ (sources : Sources) (event : Option Event) (value : Key → Literal) (p : Passage),
      p.Resolves sources event value →
        sources.replaced event (String.ofList p.written) =
          .ok (String.ofList (p.rendered value)) := by
  intro h
  let k : Key := ⟨⟨['k'], by simp [inBody, shield]⟩, rfl⟩
  let p : Passage := literal ⟨['a', shield], by simp [inBody, shield]⟩ (token k nil)
  let v : Literal := ⟨['v'], by simp [inBody]⟩
  have hresolves : p.Resolves ⟨[(.str "k", .str "v")], .given []⟩ none fun _ => v := by
    intro k' hk'
    obtain rfl : k' = k := List.mem_singleton.1 hk'
    cbv
  have hkept := h _ none (fun _ => v) p hresolves
  have hopened : Sources.replaced ⟨[(.str "k", .str "v")], .given []⟩ none "a\x00$\x7bk\x7d" =
      .ok "a$\x7bv" := by cbv
  exact absurd (Except.ok.inj (hopened.symm.trans hkept)) (by decide)

end Passage
end ConfigAssembly.Substitution
