import ConfigAssembly.Substitution

/-!
# How one round reads a text

What `round`, `keysIn` and `misfitIn` do with the parts that a text is made of: characters other
than a dollar, a token with nothing inside, and an opening whose token has another one inside. Every
lemma speaks of the part with an arbitrary rest behind it, so that texts are read part by part.

* `round_cons`, `round_append`: characters other than a dollar stay.
* `round_opening_of_some`, `round_opening_of_none`: an opening begins a token that is replaced, or
  stays.
* `Fits`: every key of a text can be looked up, and no token stands for something that is no text;
  `fits_*` read it part by part in the same way.
* `replaced_ofList`: the replacement in a text without shields is `rounds` rounds between shielding
  and unshielding.
* `Sources.Textual.replaced_cases`: where the environment holds texts only, replacement fails just
  because a key cannot be looked up.
-/

namespace ConfigAssembly.Substitution

/-! ### The body of a token -/

/-- A closing brace after characters of a body ends the body. -/
theorem body?_append_closing {s : List Char} (hs : ∀ c ∈ s, inBody c = true) (rest : List Char) :
    body? (s ++ closing :: rest) = some (s, rest) := by
  have hc : inBody closing = false := rfl
  unfold body?
  rw [List.dropWhile_append_of_pos hs, List.takeWhile_append_of_pos hs]
  simp [hc]

/-- A dollar after characters of a body leaves the token without a body. -/
theorem body?_append_dollar {s : List Char} (hs : ∀ c ∈ s, inBody c = true) (rest : List Char) :
    body? (s ++ '$' :: rest) = none := by
  have hc : inBody '$' = false := rfl
  unfold body?
  rw [List.dropWhile_append_of_pos hs]
  simp [hc, closing]

/-- A key in front of the separator is cut off there. -/
theorem cut?_append_separator {key : List Char} (hk : cut? [':', '-'] key = none)
    (fallback : List Char) :
    cut? [':', '-'] (key ++ ':' :: '-' :: fallback) = some (key, fallback) := by
  induction key with
  | nil => simp [cut?]
  | cons c cs ih =>
    unfold cut? at hk
    split at hk
    · cases hk
    · rename_i hp
      have hcs : cut? [':', '-'] cs = none := by simpa using hk
      have hp' : [':', '-'].isPrefixOf (c :: (cs ++ ':' :: '-' :: fallback)) = false := by
        cases cs with
        | nil => simp [List.isPrefixOf]
        | cons d ds => simpa [List.isPrefixOf] using hp
      rw [List.cons_append, cut?, hp', ih hcs]
      simp

/-! ### Rounds -/

section Rounds

variable {resolve : String → Option String}

/-- The empty text stays empty. -/
@[simp] theorem round_nil (afterDollar : Bool) : round resolve afterDollar [] = [] := by
  simp [round]

/-- A character other than a dollar stays, and a token may begin after it. -/
theorem round_cons {c : Char} (hc : c ≠ '$') (afterDollar : Bool) (cs : List Char) :
    round resolve afterDollar (c :: cs) = c :: round resolve false cs := by
  cases cs with
  | nil => simp [round]
  | cons d ds => rw [round]; simp [beq_eq_false_iff_ne.2 hc]

/-- Characters other than dollars stay. -/
theorem round_append {s : List Char} (hs : ∀ c ∈ s, c ≠ '$') (cs : List Char) :
    round resolve false (s ++ cs) = s ++ round resolve false cs := by
  induction s with
  | nil => rfl
  | cons c s ih =>
    rw [List.cons_append, round_cons (hs c List.mem_cons_self),
      ih fun d hd => hs d (List.mem_cons_of_mem c hd), List.cons_append]

/-- A text without dollars stays. -/
theorem round_of_no_dollar {s : List Char} (hs : ∀ c ∈ s, c ≠ '$') :
    round resolve false s = s := by
  simpa using @round_append resolve s hs []

/-- An opening without a body stays. -/
theorem round_opening_of_none {cs : List Char} (h : body? cs = none) :
    round resolve false ('$' :: '\x7b' :: cs) = '$' :: '\x7b' :: round resolve false cs := by
  rw [round]
  simp only [BEq.rfl, Bool.not_false, Bool.and_self, if_true]
  split
  · rename_i body rest hb
    rw [h] at hb
    cases hb
  · rw [round_cons (by decide)]

/-- An opening with a body is replaced together with it. -/
theorem round_opening_of_some {cs body rest : List Char} (h : body? cs = some (body, rest)) :
    round resolve false ('$' :: '\x7b' :: cs) =
      replacement resolve body ++ round resolve false rest := by
  rw [round]
  simp only [BEq.rfl, Bool.not_false, Bool.and_self, if_true]
  split
  · rename_i body' rest' hb
    rw [h] at hb
    cases hb
    rfl
  · rename_i hb
    rw [h] at hb
    cases hb

/-- A text without dollars stays in any number of rounds. -/
theorem replaceRounds_of_no_dollar {s : List Char} (hs : ∀ c ∈ s, c ≠ '$') (n : Nat) :
    replaceRounds resolve n s = s := by
  induction n with
  | zero => rfl
  | succ n ih => rw [replaceRounds, round_of_no_dollar hs, ih]

/-- What stands for a token without a fallback. -/
theorem replacement_of_cut?_eq_none {body : List Char} (h : cut? [':', '-'] body = none) :
    replacement resolve body =
      ((resolve (String.ofList body)).map String.toList).getD (shield :: body ++ [closing]) := by
  unfold replacement
  rw [h]
  cases resolve (String.ofList body) <;> rfl

/-- What stands for a token with a fallback. -/
theorem replacement_append_separator {key : List Char} (hk : cut? [':', '-'] key = none)
    (fallback : List Char) :
    replacement resolve (key ++ ':' :: '-' :: fallback) =
      ((resolve (String.ofList key)).map String.toList).getD fallback := by
  unfold replacement
  rw [cut?_append_separator hk]

end Rounds

/-! ### The keys of a round -/

section Keys

/-- It has no tokens. -/
@[simp] theorem keysIn_nil (afterDollar : Bool) : keysIn afterDollar [] = [] := by
  simp [keysIn]

/-- A character other than a dollar begins no token. -/
theorem keysIn_cons {c : Char} (hc : c ≠ '$') (afterDollar : Bool) (cs : List Char) :
    keysIn afterDollar (c :: cs) = keysIn false cs := by
  cases cs with
  | nil => simp [keysIn]
  | cons d ds => rw [keysIn]; simp [beq_eq_false_iff_ne.2 hc]

/-- An opening without a body begins no token. -/
theorem keysIn_opening_of_none {cs : List Char} (h : body? cs = none) :
    keysIn false ('$' :: '\x7b' :: cs) = keysIn false cs := by
  rw [keysIn]
  simp only [BEq.rfl, Bool.not_false, Bool.and_self, if_true]
  split
  · rename_i body rest hb
    rw [h] at hb
    cases hb
  · rw [keysIn_cons (by decide)]

/-- The key of a token comes before those of the tokens after it. -/
theorem keysIn_opening_of_some {cs body rest : List Char} (h : body? cs = some (body, rest)) :
    keysIn false ('$' :: '\x7b' :: cs) = keyOf body :: keysIn false rest := by
  rw [keysIn]
  simp only [BEq.rfl, Bool.not_false, Bool.and_self, if_true]
  split
  · rename_i body' rest' hb
    rw [h] at hb
    cases hb
    rfl
  · rename_i hb
    rw [h] at hb
    cases hb

end Keys

/-! ### Texts whose tokens all stand for texts -/

section Fitting

variable {resolve : String → Except Fault (Option Value)}

/-- A look-up does not fail, and it finds a text if it finds anything. -/
def Succeeds (o : Except Fault (Option Value)) : Prop :=
  o = .ok none ∨ ∃ s, o = .ok (some (.str s))

/-- What is found then is a text. -/
theorem Succeeds.filter_found? {o : Except Fault (Option Value)} (h : Succeeds o) :
    (found? o).filter (·.str?.isNone) = none := by
  obtain rfl | ⟨s, rfl⟩ := h <;> simp [Value.str?]

/-- A look-up that finds a text or nothing succeeds. -/
theorem succeeds_map_str {α : Type} (o : Option α) (f : α → String) :
    Succeeds (.ok (o.map fun a => .str (f a))) := by
  cases o with
  | none => exact Or.inl rfl
  | some a => exact Or.inr ⟨f a, rfl⟩

/-- Nothing goes wrong in a round, whatever comes before. -/
structure Fits (resolve : String → Except Fault (Option Value)) (cs : List Char) : Prop where
  /-- No key fails to be looked up. -/
  found : firstFault resolve (keysIn false cs) = none
  /-- No token stands for something that is no text. -/
  texts : ∀ parts pending,
    misfitIn (fun key => found? (resolve key)) false parts pending cs = none

/-- The empty text fits. -/
theorem fits_nil : Fits resolve [] := ⟨by simp [firstFault], fun _ _ => by simp [misfitIn]⟩

/-- A character other than a dollar does no harm, also after a dollar. -/
theorem misfitIn_cons {c : Char} (hc : c ≠ '$') {cs : List Char} (h : Fits resolve cs)
    (afterDollar : Bool) (parts : Nat) (pending : Bool) :
    misfitIn (fun key => found? (resolve key)) afterDollar parts pending (c :: cs) = none := by
  cases cs with
  | nil => simp [misfitIn]
  | cons d ds =>
    rw [misfitIn]
    simp only [beq_eq_false_iff_ne.2 hc, Bool.false_and, Bool.false_eq_true, if_false]
    exact h.texts parts true

/-- A character that is no dollar in front of a text that fits. -/
theorem fits_cons {c : Char} (hc : c ≠ '$') {cs : List Char} (h : Fits resolve cs) :
    Fits resolve (c :: cs) :=
  ⟨by rw [keysIn_cons hc]; exact h.found, misfitIn_cons hc h false⟩

/-- Characters other than dollars do no harm. -/
theorem fits_append {s : List Char} (hs : ∀ c ∈ s, c ≠ '$') {cs : List Char}
    (h : Fits resolve cs) : Fits resolve (s ++ cs) := by
  induction s with
  | nil => exact h
  | cons c s ih =>
    exact fits_cons (hs c List.mem_cons_self) (ih fun d hd => hs d (List.mem_cons_of_mem c hd))

/-- An opening without a body does no harm. -/
theorem fits_opening_of_none {cs : List Char} (hb : body? cs = none) (h : Fits resolve cs) :
    Fits resolve ('$' :: '\x7b' :: cs) := by
  refine ⟨by rw [keysIn_opening_of_none hb]; exact h.found, fun parts pending => ?_⟩
  rw [misfitIn]
  simp only [BEq.rfl, Bool.not_false, Bool.and_self, if_true]
  split
  · rename_i body rest hb'
    rw [hb] at hb'
    cases hb'
  · exact misfitIn_cons (by decide) h true parts true

/-- A token does no harm if the look-up of its key succeeds. -/
theorem fits_opening_of_some {cs body rest : List Char} (hb : body? cs = some (body, rest))
    (hk : Succeeds (resolve (keyOf body))) (h : Fits resolve rest) :
    Fits resolve ('$' :: '\x7b' :: cs) := by
  have hfound : firstFault resolve (keyOf body :: keysIn false rest) = none := by
    obtain hk | ⟨s, hk⟩ := hk <;> rw [firstFault, hk] <;> exact h.found
  refine ⟨by rw [keysIn_opening_of_some hb]; exact hfound, fun parts pending => ?_⟩
  rw [misfitIn]
  simp only [BEq.rfl, Bool.not_false, Bool.and_self, if_true]
  split
  · rename_i body' rest' hb'
    rw [hb] at hb'
    cases hb'
    rw [hk.filter_found?]
    exact h.texts _ _
  · rename_i hb'
    rw [hb] at hb'
    cases hb'

/-- The text of what a key resolves to if its look-up does not fail. -/
theorem lookupText_of_lookup {sources : Sources} {event : Option Event} {key : String}
    {o : Option Value} (h : lookup sources event key = .ok o) :
    lookupText sources event key = o.map Value.text := by
  rw [lookupText, h, found?_ok]

/-- If nothing goes wrong in a round, what goes wrong is what does so in the rounds after it. -/
theorem misfitWithin_succ {cs : List Char} (h : Fits resolve cs) (n : Nat) :
    misfitWithin resolve (n + 1) cs =
      misfitWithin resolve n
        (round (fun key => (found? (resolve key)).map Value.text) false cs) := by
  rw [misfitWithin, h.found, h.texts]

/-- Without dollars nothing goes wrong. -/
theorem misfitWithin_of_no_dollar {s : List Char} (hs : ∀ c ∈ s, c ≠ '$') (n : Nat) :
    misfitWithin resolve n s = none := by
  have hf : Fits resolve s := by simpa using fits_append hs fits_nil
  induction n with
  | zero => rfl
  | succ n ih => rw [misfitWithin_succ hf, round_of_no_dollar hs]; exact ih

/-- Where every key that is found stands for a text, no token stands for anything else. -/
theorem misfitIn_eq_none {resolve : String → Option Value}
    (h : ∀ key v, resolve key = some v → ∃ s, v = .str s) (afterDollar : Bool) (parts : Nat)
    (pending : Bool) (cs : List Char) :
    misfitIn resolve afterDollar parts pending cs = none := by
  have hf : ∀ key, (resolve key).filter (·.str?.isNone) = none := by
    intro key
    rw [Option.filter_eq_none_iff]
    intro v hv
    obtain ⟨s, rfl⟩ := h key v hv
    simp [Value.str?]
  fun_induction misfitIn resolve afterDollar parts pending cs with
  | case1 | case2 => rfl
  | case3 _ _ _ _ _ _ _ body rest _ parts v hv => rw [hf] at hv; cases hv
  | case4 _ _ _ _ _ _ _ body rest _ parts _ ih => exact ih
  | case5 _ _ _ _ _ _ _ _ ih => exact ih
  | case6 _ _ _ _ _ _ _ ih => exact ih

/-- The first look-up that fails is one of those that are made. -/
theorem exists_of_firstFault {keys : List String} {f : Fault}
    (h : firstFault resolve keys = some f) : ∃ key ∈ keys, resolve key = .error f := by
  induction keys with
  | nil => cases h
  | cons key keys ih =>
    unfold firstFault at h
    split at h
    · rename_i g hg
      exact ⟨key, List.mem_cons_self, by rw [hg, Option.some.inj h]⟩
    · obtain ⟨k, hk, hf⟩ := ih h
      exact ⟨k, List.mem_cons_of_mem key hk, hf⟩

/-- Where every key that is found stands for a text, what goes wrong is that a key cannot be looked
up. -/
theorem exists_of_misfitWithin
    (h : ∀ key v, resolve key = .ok (some v) → ∃ s, v = .str s) {n : Nat} {cs : List Char}
    {f : Fault} (hf : misfitWithin resolve n cs = some f) : ∃ key, resolve key = .error f := by
  have hfound : ∀ key v, found? (resolve key) = some v → ∃ s, v = .str s := by
    intro key v hv
    cases hr : resolve key with
    | error f => rw [hr] at hv; cases hv
    | ok o =>
      rw [hr] at hv
      exact h key v (by rw [hr]; exact congrArg Except.ok hv)
  induction n generalizing cs with
  | zero => cases hf
  | succ n ih =>
    rw [misfitWithin, misfitIn_eq_none hfound] at hf
    cases hg : firstFault resolve (keysIn false cs) with
    | some g =>
      rw [hg] at hf
      obtain ⟨key, _, hkey⟩ := exists_of_firstFault hg
      exact ⟨key, by rw [hkey, ← Option.some.inj hf]⟩
    | none =>
      rw [hg] at hf
      exact ih hf

end Fitting

/-! ### Whole texts -/

/-- A character other than a dollar is not part of an escape that begins with it. -/
theorem shieldEscapes_cons {c : Char} (hc : c ≠ '$') (cs : List Char) :
    shieldEscapes (c :: cs) = c :: shieldEscapes cs := by
  rw [shieldEscapes]
  rintro cs' rfl
  exact absurd rfl hc

/-- Escapes are shielded past characters that are no dollars. -/
theorem shieldEscapes_append {s : List Char} (hs : ∀ c ∈ s, c ≠ '$') (cs : List Char) :
    shieldEscapes (s ++ cs) = s ++ shieldEscapes cs := by
  induction s with
  | nil => rfl
  | cons c s ih =>
    rw [List.cons_append, shieldEscapes_cons (hs c List.mem_cons_self),
      ih fun d hd => hs d (List.mem_cons_of_mem c hd), List.cons_append]

/-- The opening of a token is no escape. -/
theorem shieldEscapes_opening (cs : List Char) :
    shieldEscapes ('$' :: '\x7b' :: cs) = '$' :: '\x7b' :: shieldEscapes cs := by
  rw [shieldEscapes, shieldEscapes_cons (by decide)]
  intro cs' _ h
  cases h

/-- A text without openings has no escapes. -/
theorem shieldEscapes_of_not_hasOpening {cs : List Char} (h : hasOpening cs = false) :
    shieldEscapes cs = cs := by
  fun_induction shieldEscapes cs with
  | case1 cs ih => simp [hasOpening, opening] at h
  | case2 c cs _ ih =>
    have : hasOpening cs = false := by
      simp only [hasOpening, Bool.or_eq_false_iff] at h
      exact h.2
    rw [ih this]
  | case3 => rfl

/-- A text without openings has no tokens. -/
theorem round_of_not_hasOpening {resolve : String → Option String} {cs : List Char}
    (h : hasOpening cs = false) (afterDollar : Bool) : round resolve afterDollar cs = cs := by
  induction cs generalizing afterDollar with
  | nil => simp
  | cons c cs ih =>
    simp only [hasOpening, Bool.or_eq_false_iff] at h
    cases cs with
    | nil => simp [round]
    | cons d ds =>
      have hcd : (c == '$' && d == '\x7b') = false := by
        have := h.1
        simp only [opening, List.isPrefixOf, Bool.and_true] at this
        rwa [Bool.beq_comm (a := c), Bool.beq_comm (a := d)]
      rw [round]
      simp only [hcd, Bool.false_and, Bool.false_eq_true, if_false]
      rw [ih h.2]

/-- A text without openings stays through all rounds. -/
theorem replaceRounds_of_not_hasOpening {resolve : String → Option String} {cs : List Char}
    (h : hasOpening cs = false) (n : Nat) : replaceRounds resolve n cs = cs := by
  induction n with
  | zero => rfl
  | succ n ih => rw [replaceRounds, round_of_not_hasOpening h, ih]

/-- The short cut for texts without openings makes no difference unless there are shields. -/
theorem expand_ofList {resolve : String → Option String} {cs : List Char} (hs : shield ∉ cs) :
    expand resolve (String.ofList cs) =
      String.ofList (unshield (replaceRounds resolve rounds (shieldEscapes cs))) := by
  unfold expand
  rw [String.toList_ofList]
  cases h : hasOpening cs with
  | true => simp
  | false =>
    rw [shieldEscapes_of_not_hasOpening h, replaceRounds_of_not_hasOpening h,
      unshield_of_not_mem hs]
    simp

/-- The tokens of a text without shields are replaced in rounds between shielding and unshielding,
unless something that is no text should stand for one. -/
theorem replaced_ofList {sources : Sources} {event : Option Event} {cs : List Char}
    (hs : shield ∉ cs)
    (hm : misfitWithin (lookup sources event) rounds (shieldEscapes cs) = none) :
    sources.replaced event (String.ofList cs) =
      .ok (String.ofList (unshield
        (replaceRounds (lookupText sources event) rounds (shieldEscapes cs)))) := by
  unfold Sources.replaced Sources.misfit Sources.replace
  rw [String.toList_ofList, hm, expand_ofList hs]

end ConfigAssembly.Substitution

namespace ConfigAssembly.Sources

/-! ### Sources of texts -/

/-- The environment holds texts only. -/
def Textual (sources : Sources) : Prop := sources.environment.Textual

namespace Textual

variable {sources : Sources}

/-- What a key resolves to is a text then, as properties and events give their texts anyway. -/
theorem exists_str_of_lookup (h : sources.Textual) {event : Option Event} {key : String} {v : Value}
    (hv : Substitution.lookup sources event key = .ok (some v)) : ∃ s, v = .str s := by
  unfold Substitution.lookup at hv
  split at hv
  · exact h _ v hv
  · exact Value.exists_str_of_written? hv
  · exact Value.exists_str_of_written? hv

/-- What keeps tokens from being replaced is then that a key cannot be looked up. -/
theorem replaced_cases (h : sources.Textual) (event : Option Event) (s : String) :
    sources.replaced event s = .ok (sources.replace event s) ∨
      ∃ f, sources.replaced event s = .error f ∧
        ∃ key, Substitution.lookup sources event key = .error f := by
  unfold Sources.replaced Sources.misfit
  split
  · rename_i f hf
    exact Or.inr ⟨f, rfl,
      Substitution.exists_of_misfitWithin (fun _ _ => h.exists_str_of_lookup) hf⟩
  · exact Or.inl rfl

end Textual
end ConfigAssembly.Sources
