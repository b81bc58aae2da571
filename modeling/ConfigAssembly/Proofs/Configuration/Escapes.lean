import ConfigAssembly.Proofs.Configuration.Properties
import ConfigAssembly.Proofs.Substitution.Fallback

/-!
# Properties with an escape

The escape of a property is taken off when its block is read, so the property stands for a text with
a token again (`get?_of_make_escaped`). Used by its name, the property takes one round of the
replacement, and the rounds that are left find this token: what its key resolves to, or else its
fallback, takes the place of the literal (`Escaped.revived`). Only a token with neither comes out as
it was escaped, and one whose value comes out as this very token (`Escaped.Kept`).

The characters around the token have no part in this: `replaceRounds_between`.
-/

namespace ConfigAssembly

open Substitution

namespace Substitution

/-! ### Characters behind a text -/

section Behind

variable {resolve : String → Option String} {tail : List Char}

/-- What follows a token is not part of it. -/
theorem body?_append_of_some {cs body rest : List Char} (h : body? cs = some (body, rest)) :
    body? (cs ++ tail) = some (body, rest ++ tail) := by
  unfold body? at h
  split at h
  · rename_i c rest' hdrop
    split at h
    · rename_i hc
      obtain ⟨rfl, rfl⟩ : cs.takeWhile inBody = body ∧ rest' = rest := by simpa using h
      obtain rfl : c = closing := by simpa using hc
      have hsplit : cs = cs.takeWhile inBody ++ closing :: rest' := by
        conv_lhs => rw [← List.takeWhile_append_dropWhile (p := inBody) (l := cs), hdrop]
      have hbody : ∀ c ∈ cs.takeWhile inBody, inBody c = true := fun _ => List.mem_takeWhile_imp
      conv_lhs => rw [hsplit, List.append_assoc, List.cons_append]
      exact body?_append_closing hbody (rest' ++ tail)
    · cases h
  · cases h

/-- Characters of a body do not end one. -/
theorem body?_append_of_none (ht : ∀ c ∈ tail, inBody c = true) {cs : List Char}
    (h : body? cs = none) : body? (cs ++ tail) = none := by
  have hsplit := List.takeWhile_append_dropWhile (p := inBody) (l := cs)
  have hbody : ∀ c ∈ cs.takeWhile inBody, inBody c = true := fun _ => List.mem_takeWhile_imp
  unfold body? at h ⊢
  cases hdrop : cs.dropWhile inBody with
  | nil =>
    rw [hdrop, List.append_nil] at hsplit
    rw [hsplit] at hbody
    rw [List.dropWhile_append_of_pos hbody, List.dropWhile_eq_nil_iff.2 ht]
  | cons c rest =>
    rw [hdrop] at h
    have hc : ¬ (c == closing) = true := by
      intro hc
      simp [hc] at h
    have hcs : (cs ++ tail).dropWhile inBody = c :: (rest ++ tail) := by
      rw [List.dropWhile_append, hdrop]
      simp
    rw [hcs]
    simp [hc]

/-- Characters of a body that stand behind a text stay there. -/
theorem round_append_right (ht : ∀ c ∈ tail, inBody c = true) (afterDollar : Bool)
    (cs : List Char) :
    round resolve afterDollar (cs ++ tail) = round resolve afterDollar cs ++ tail := by
  have hdollar : ∀ c ∈ tail, c ≠ '$' := by
    rintro c hc rfl
    exact absurd (ht _ hc) (by decide)
  have hopening : hasOpening tail = false := hasOpening_of_no_dollar hdollar
  fun_induction round resolve afterDollar cs with
  | case1 afterDollar => exact round_of_not_hasOpening hopening afterDollar
  | case2 afterDollar c =>
    have hnone : hasOpening (c :: tail) = false := by
      have hbrace : '\x7b' ∉ tail := fun h => absurd (ht _ h) (by decide)
      cases tail with
      | nil => simp [hasOpening, opening, List.isPrefixOf]
      | cons d ds =>
        have hd : ¬ '\x7b' = d := fun h => hbrace (h ▸ List.mem_cons_self)
        rw [hasOpening, hopening]
        simp [opening, List.isPrefixOf, hd]
    exact round_of_not_hasOpening hnone afterDollar
  | case3 afterDollar c d cs hopen body rest hb ih =>
    obtain ⟨⟨rfl, rfl⟩, rfl⟩ : (c = '$' ∧ d = '\x7b') ∧ afterDollar = false := by simpa using hopen
    rw [List.cons_append, List.cons_append, round_opening_of_some (body?_append_of_some hb), ih,
      List.append_assoc]
  | case4 afterDollar c d cs hopen hb ih =>
    obtain ⟨⟨rfl, rfl⟩, rfl⟩ : (c = '$' ∧ d = '\x7b') ∧ afterDollar = false := by simpa using hopen
    rw [List.cons_append, round_cons (by decide), round_cons (by decide)] at ih
    rw [List.cons_append, List.cons_append, round_opening_of_none (body?_append_of_none ht hb),
      round_cons (by decide), (List.cons.inj ih).2]
    rfl
  | case5 afterDollar c d cs hopen ih =>
    rw [List.cons_append, List.cons_append, round, if_neg hopen, ← List.cons_append, ih]
    rfl

/-- Characters other than a dollar before a text, and characters of a body behind it, stay where
they are in any number of rounds. -/
theorem replaceRounds_between {head : List Char} (hh : ∀ c ∈ head, c ≠ '$')
    (ht : ∀ c ∈ tail, inBody c = true) (n : Nat) (cs : List Char) :
    replaceRounds resolve n (head ++ (cs ++ tail)) =
      head ++ (replaceRounds resolve n cs ++ tail) := by
  induction n generalizing cs with
  | zero => rfl
  | succ n ih => rw [replaceRounds, round_append hh, round_append_right ht, ih, replaceRounds]

end Behind

/-! ### A text with an escape -/

/-- The token with a plain text for its body. -/
def Plain.token (p : Plain) : List Char := '$' :: '\x7b' :: (p.chars ++ [closing])

/-- A text with an escape in it. -/
structure Escaped where
  /-- What stands before the escape. -/
  before : Plain
  /-- The body of the escaped token. -/
  body : Plain
  /-- What stands behind it. -/
  after : Plain

namespace Escaped

variable (e : Escaped)

/-- The text with something in the place of the escape. -/
def around (cs : List Char) : String := String.ofList (e.before.chars ++ (cs ++ e.after.chars))

/-- The text as a template. -/
def template : Template := .text e.before (.escape e.body (.text e.after .nil))

/-- How the text is written. -/
def written : String := String.ofList e.template.written

/-- The text that is meant. -/
def literal : String := e.around e.body.token

/-- What stands around a token does not hide it. -/
theorem around_inj {cs cs' : List Char} : e.around cs = e.around cs' ↔ cs = cs' := by
  unfold around
  rw [String.ofList_inj, List.append_cancel_left_eq, List.append_cancel_right_eq]

/-- The replacement of tokens takes the escape off, and nothing is looked up. -/
theorem replaced_eq_literal (s : Sources) (event : Option Event) :
    s.replaced event e.written = .ok e.literal := by
  have hgrounded : e.template.Grounded s event Template.unknown 0 := by
    rintro k ⟨⟩
  have hshielded : shieldEscapes e.template.written = e.template.shielded := by
    simpa [shieldEscapes] using e.template.shieldEscapes_written []
  have hwell : e.template.WellPlaced Template.unknown := trivial
  have hfits := Template.misfitWithin_shielded hwell hgrounded rounds
  have hmeant := Template.unshield_replaceRounds_shielded hwell hgrounded (Nat.zero_le rounds)
  rw [← hshielded] at hfits
  rw [written, replaced_ofList e.template.shield_not_mem_written hfits, hshielded, hmeant]
  simp [literal, around, Plain.token, template, Template.expand, Template.expandWith,
    Expansion.after]

/-- What comes out for the token that was escaped when the property is used: the value that its key
resolves to, after the rounds that are left, or else its fallback, or else the token itself. -/
def revived (resolve : String → Option String) : List Char :=
  match resolve (keyOf e.body.chars) with
  | some v => unshield (replaceRounds resolve (rounds - 2) v.toList)
  | none =>
    ((cut? [':', '-'] e.body.chars).map (·.2)).getD e.body.token

/-- The token that was escaped comes out as it is: its key resolves to nothing and it has no
fallback, or its key resolves to a value that comes out as the token. -/
def Kept (resolve : String → Option String) : Prop :=
  match resolve (keyOf e.body.chars) with
  | some v => unshield (replaceRounds resolve (rounds - 2) v.toList) = e.body.token
  | none => cut? [':', '-'] e.body.chars = none

/-- A token that comes back is the same just if it is kept. -/
theorem revived_eq_token_iff {resolve : String → Option String} :
    e.revived resolve = e.body.token ↔ e.Kept resolve := by
  unfold revived Kept
  cases resolve (keyOf e.body.chars) with
  | some v => rfl
  | none =>
    cases hcut : cut? [':', '-'] e.body.chars with
    | none => simp
    | some p =>
      -- A fallback has no dollar, with which the token begins.
      have hne : p.2 ≠ e.body.token := by
        intro hp
        have hdollar : '$' ∈ e.body.chars := by
          rw [eq_append_of_cut? hcut, hp]
          simp [Plain.token]
        exact e.body.ne_dollar_of_mem hdollar rfl
      simp [hne]

/-- The rounds after the first make of the token what `revived` says. -/
theorem unshield_replaceRounds_replacement (resolve : String → Option String) :
    unshield (replaceRounds resolve (rounds - 2) (replacement resolve e.body.chars)) =
      e.revived resolve := by
  unfold revived replacement keyOf
  cases hcut : cut? [':', '-'] e.body.chars with
  | none =>
    dsimp only [Option.map_none, Option.getD_none]
    cases hvalue : resolve (String.ofList e.body.chars) with
    | some v => rfl
    | none =>
      have hdollar : ∀ c ∈ shield :: (e.body.chars ++ [closing]), c ≠ '$' := by
        simp only [List.mem_cons, List.mem_append, List.mem_nil_iff, or_false]
        rintro c (rfl | hc | rfl)
        · decide
        · exact e.body.ne_dollar_of_mem hc
        · decide
      dsimp only
      rw [List.cons_append, replaceRounds_of_no_dollar hdollar, e.body.unshield_escaped]
      rfl
  | some p =>
    dsimp only [Option.map_some, Option.getD_some]
    cases hvalue : resolve (String.ofList p.1) with
    | some v => rfl
    | none =>
      have hmem : ∀ c ∈ p.2, c ∈ e.body.chars := by
        intro c hc
        rw [eq_append_of_cut? hcut]
        exact List.mem_append_right _ hc
      have hshield : shield ∉ p.2 := fun hc => e.body.shield_not_mem (hmem _ hc)
      dsimp only [Option.map_none, Option.getD_none]
      rw [replaceRounds_of_no_dollar fun c hc => e.body.ne_dollar_of_mem (hmem c hc),
        unshield_of_not_mem hshield]

end Escaped
end Substitution

/-! ### Using a property with an escape -/

section Using

variable {s : Sources} {p : Plain} (e : Escaped)

/-- A text without a colon is looked up among the properties. -/
theorem isProperty_of_no_colon (h : ':' ∉ p.chars) : isProperty p.text = true := by
  rw [isProperty, Plain.text, String.toList_ofList, cut?_of_not_mem h]

/-- A text without a colon has no fallback. -/
theorem cut?_of_no_colon (h : ':' ∉ p.chars) : cut? [':', '-'] p.chars = none := by
  cases hcut : cut? [':', '-'] p.chars with
  | none => rfl
  | some q =>
    rw [eq_append_of_cut? hcut] at h
    simp at h

/-- A property is used by its name: what stands for it after one round is expanded by the rounds
that are left. -/
theorem replace_name (hs : s.properties.get? (.str p.text) = some (.str e.literal))
    (hp : ':' ∉ p.chars) (event : Option Event) :
    s.replace event (String.ofList p.token) =
      e.around (e.revived (lookupText s event)) := by
  have hvalue : lookupText s event (String.ofList p.chars) = some e.literal := by
    change lookupText s event p.text = some e.literal
    rw [lookupText, lookup_of_isProperty (isProperty_of_no_colon hp), hs]
    rfl
  have hshield : shield ∉ p.token := by
    have hmarks : shield ≠ '$' ∧ shield ≠ '\x7b' ∧ shield ≠ closing := by decide
    simp [Plain.token, hmarks, p.shield_not_mem]
  have hescapes : shieldEscapes p.token = p.token := by
    rw [Plain.token, shieldEscapes_opening, shieldEscapes_append fun _ => p.ne_dollar_of_mem]
    rfl
  have hfirst : round (lookupText s event) false p.token =
      e.before.chars ++ ('$' :: '\x7b' :: (e.body.chars ++ closing :: e.after.chars)) := by
    rw [Plain.token, round_opening_of_some (body?_append_closing (fun _ => p.inBody_of_mem) []),
      replacement_of_cut?_eq_none (cut?_of_no_colon hp), hvalue]
    simp [Escaped.literal, Escaped.around, Plain.token]
  have hsecond : round (lookupText s event) false
      (e.before.chars ++ ('$' :: '\x7b' :: (e.body.chars ++ closing :: e.after.chars))) =
      e.before.chars ++ (replacement (lookupText s event) e.body.chars ++ e.after.chars) := by
    rw [round_append fun _ => e.before.ne_dollar_of_mem,
      round_opening_of_some (body?_append_closing (fun _ => e.body.inBody_of_mem) _),
      round_of_no_dollar fun _ => e.after.ne_dollar_of_mem]
  have hrest : replaceRounds (lookupText s event) (rounds - 2)
      (e.before.chars ++ (replacement (lookupText s event) e.body.chars ++ e.after.chars)) = _ :=
    replaceRounds_between (fun _ => e.before.ne_dollar_of_mem) (fun _ => e.after.inBody_of_mem) _ _
  rw [Sources.replace, expand_ofList hshield, hescapes]
  change String.ofList (unshield
    (replaceRounds _ (rounds - 2) (round _ false (round _ false _)))) = _
  rw [hfirst, hsecond, hrest, unshield_append, unshield_append,
    unshield_of_not_mem e.before.shield_not_mem, unshield_of_not_mem e.after.shield_not_mem,
    e.unshield_replaceRounds_replacement]
  rfl

end Using

namespace Configuration

variable {root : Node} {registry : Registry} {visitors : VisitorRegistry}
variable {environment : Assoc String String} {overrides : Assoc String Value}
variable {c : Configuration} {log : Log}

/-- The escape of a property is off when its block was read. -/
theorem get?_of_make_escaped {name : String} {e : Escaped} {before after : List Node} {t : Node}
    (h : make root registry visitors environment overrides = (.ok c, log))
    (hroot : root.declarations = before ++ t :: after) (hname : propertyName? t = some name)
    (hvalue : propertyValue t = .str e.written) (hafter : name ∉ propertyNames after)
    (hover : name ∉ overrides.keys) :
    c.sources.properties.get? (.str name) = some (.str e.literal) := by
  obtain ⟨s, v, hs, hv, hget⟩ := get?_of_make_declared h hroot hname hafter hover
  rw [hvalue] at hv
  change (s.replaced none e.written).map Value.str = .ok v at hv
  rw [e.replaced_eq_literal] at hv
  rw [hget, ← Except.ok.inj hv]

/-- A property whose value has an escape, used by its name: the value that the key of the escaped
token resolves to takes the place of the token, or else its fallback does, unless a look-up fails.
So the literal text comes out just if no look-up fails and the key resolves to nothing and there is
no fallback, or it resolves to a value that comes out as the token itself. -/
theorem replaced_make_escaped {e : Escaped} {p : Plain} {before after : List Node} {t : Node}
    (h : make root registry visitors environment overrides = (.ok c, log))
    (hroot : root.declarations = before ++ t :: after) (hp : ':' ∉ p.chars)
    (hname : propertyName? t = some p.text) (hvalue : propertyValue t = .str e.written)
    (hafter : p.text ∉ propertyNames after) (hover : p.text ∉ overrides.keys)
    (event : Option Event) :
    c.sources.replaced event (String.ofList p.token) =
        (firstFault (lookup c.sources event)
          (c.sources.lookedUp event (String.ofList p.token))).elim
          (.ok (e.around (e.revived (lookupText c.sources event)))) .error ∧
      (c.sources.replaced event (String.ofList p.token) = .ok e.literal ↔
        firstFault (lookup c.sources event)
          (c.sources.lookedUp event (String.ofList p.token)) = none ∧
        e.Kept (lookupText c.sources event)) := by
  have hget := get?_of_make_escaped h hroot hname hvalue hafter hover
  have hreplaced : c.sources.replaced event (String.ofList p.token) =
      (firstFault (lookup c.sources event)
        (c.sources.lookedUp event (String.ofList p.token))).elim
        (.ok (e.around (e.revived (lookupText c.sources event)))) .error := by
    rw [(textual_of_make h).replaced_eq, replace_name e hget hp]
  refine ⟨hreplaced, ?_⟩
  rw [hreplaced]
  cases firstFault (lookup c.sources event)
    (c.sources.lookedUp event (String.ofList p.token)) with
  | some f => simp
  | none => simp [Escaped.literal, e.around_inj, e.revived_eq_token_iff]

/-- The escape of a property comes out as it is where the name in it has no value. -/
theorem replaced_make_escaped_unresolved :
    ∃ c log, make (Node.declaring [("q", "v"), ("p", "x$$\x7bb\x7dz")]) .empty .standard []
        [("q", .str "w")] = (.ok c, log) ∧
      c.sources.replaced none "$\x7bp\x7d" = .ok "x$\x7bb\x7dz" := by
  let e : Escaped := ⟨⟨['x'], by simp [inBody, shield]⟩, ⟨['b'], by simp [inBody, shield]⟩,
    ⟨['z'], by simp [inBody, shield]⟩⟩
  let p : Plain := ⟨['p'], by simp [inBody, shield]⟩
  have hread : (Node.declaring [("q", "v"), ("p", "x$$\x7bb\x7dz")]).declarations.foldlM
      readProperty (.start []) =
        .ok ⟨[(.str "q", .str "v"), (.str "p", .str "x$\x7bb\x7dz")], .process []⟩ := by cbv
  obtain ⟨c, log, hc, hs⟩ := exists_make hread .empty .standard [("q", .str "w")]
  have hvalue : propertyValue (Node.property "p" "x$$\x7bb\x7dz") = .str e.written := rfl
  have hfound : firstFault (lookup c.sources none)
      (c.sources.lookedUp none (String.ofList p.token)) = none := by
    rw [hs]
    cbv
  have hkept : e.Kept (lookupText c.sources none) := by
    rw [hs]
    cbv
  have hroot : (Node.declaring [("q", "v"), ("p", "x$$\x7bb\x7dz")]).declarations =
      [Node.property "q" "v"] ++ Node.property "p" "x$$\x7bb\x7dz" :: [] := rfl
  have hcolon : ':' ∉ p.chars := by decide
  obtain ⟨_, hliteral⟩ := replaced_make_escaped hc hroot hcolon rfl hvalue (by decide) (by decide)
    none
  exact ⟨c, log, hc, hliteral.2 ⟨hfound, hkept⟩⟩

/-- An escape of a property does not stay one if the name in it has a value. -/
theorem not_forall_replaced_literal :
    ¬ ∀ (root : Node) (registry : Registry) (visitors : VisitorRegistry)
      (environment : Assoc String String) (overrides : Assoc String Value) (c : Configuration)
      (log : Log) (e : Escaped) (p : Plain) (before after : List Node) (t : Node),
      make root registry visitors environment overrides = (.ok c, log) →
      root.declarations = before ++ t :: after → ':' ∉ p.chars →
      propertyName? t = some p.text → propertyValue t = .str e.written →
      p.text ∉ propertyNames before → p.text ∉ propertyNames after → p.text ∉ overrides.keys →
      ∀ event, c.sources.replaced event (String.ofList p.token) = .ok e.literal := by
  intro h
  let e : Escaped := ⟨⟨['x'], by simp [inBody, shield]⟩, ⟨['b'], by simp [inBody, shield]⟩,
    ⟨['z'], by simp [inBody, shield]⟩⟩
  let p : Plain := ⟨['p'], by simp [inBody, shield]⟩
  have hread : (Node.declaring [("b", "v"), ("p", "x$$\x7bb\x7dz")]).declarations.foldlM
      readProperty (.start []) =
        .ok ⟨[(.str "b", .str "v"), (.str "p", .str "x$\x7bb\x7dz")], .process []⟩ := by cbv
  obtain ⟨c, log, hc, hs⟩ := exists_make hread .empty .standard []
  have hvalue : propertyValue (Node.property "p" "x$$\x7bb\x7dz") = .str e.written := rfl
  have hliteral := h _ .empty .standard [] [] c log e p [Node.property "b" "v"] [] _ hc rfl
    (by decide) rfl hvalue (by decide) (by decide) (by decide) none
  have hused : c.sources.replaced none (String.ofList p.token) = .ok "xvz" := by
    rw [hs]
    cbv
  rw [hused] at hliteral
  exact absurd (Except.ok.inj hliteral) (by decide)

end Configuration
end ConfigAssembly
