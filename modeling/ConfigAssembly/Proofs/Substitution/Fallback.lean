import ConfigAssembly.Proofs.Substitution.Template

/-!
# Fallbacks with tokens that do not resolve

A token without a value that stands in a fallback is escaped in the first round and keeps its
closing brace. In the second round this brace ends the token around it: the fallback stops there,
and what is behind the brace stays in the text, with the brace of the outer token.
`replaced_unresolved_fallback` says what comes out, and that it is the value or the whole fallback
just when the fallback has no token, or when there is no value and the only token ends the fallback.
-/

namespace ConfigAssembly.Substitution

/-- A pattern of one character is cut off at its first occurrence. -/
theorem cut?_append_of_not_mem {c : Char} {s : List Char} (hs : c ∉ s) (rest : List Char) :
    cut? [c] (s ++ c :: rest) = some (s, rest) := by
  induction s with
  | nil => simp [cut?]
  | cons d s ih =>
    rw [List.mem_cons, not_or] at hs
    rw [List.cons_append, cut?, ih hs.2]
    simp [hs.1]

/-- A character that does not occur is not cut off. -/
theorem cut?_of_not_mem {c : Char} {s : List Char} (hs : c ∉ s) : cut? [c] s = none := by
  induction s with
  | nil => rfl
  | cons d s ih =>
    rw [List.mem_cons, not_or] at hs
    rw [cut?, ih hs.2]
    simp [hs.1]

/-! ### A token without another inside -/

section Token

variable {sources : Sources} {event : Option Event} {k : Key} {v? : Option Plain}
variable {f rest : List Char}

/-- A round replaces such a token by the value, if there is one, or by the fallback. -/
theorem round_token
    (hk : lookup sources event k.name = .ok (v?.map fun v => .str (String.ofList v.chars)))
    (hf : ∀ c ∈ f, inBody c = true) (hr : ∀ c ∈ rest, c ≠ '$') :
    round (lookupText sources event) false
        ('$' :: '\x7b' :: (k.chars ++ ':' :: '-' :: (f ++ closing :: rest))) =
      v?.elim f (·.chars) ++ rest := by
  have hvalue : lookupText sources event (String.ofList k.chars) =
      v?.map fun v => String.ofList v.chars := by
    rw [show String.ofList k.chars = k.name from rfl, lookupText_of_lookup hk, Option.map_map]
    rfl
  rw [round_opening_of_some (k.body?_separated hf rest), replacement_append_separator k.whole,
    hvalue, round_of_no_dollar hr]
  cases v? <;> simp

/-- No token is left then. -/
theorem no_dollar_token (hf : ∀ c ∈ f, inBody c = true) (hr : ∀ c ∈ rest, c ≠ '$') :
    ∀ c ∈ v?.elim f (·.chars) ++ rest, c ≠ '$' := by
  intro c hc
  rcases List.mem_append.1 hc with hc | hc
  · cases v? with
    | none =>
      rintro rfl
      exact absurd (hf _ hc) (by decide)
    | some v => exact v.ne_dollar_of_mem hc
  · exact hr c hc

/-- Several rounds do the same. -/
theorem replaceRounds_token
    (hk : lookup sources event k.name = .ok (v?.map fun v => .str (String.ofList v.chars)))
    (hf : ∀ c ∈ f, inBody c = true) (hr : ∀ c ∈ rest, c ≠ '$') (n : Nat) :
    replaceRounds (lookupText sources event) (n + 1)
        ('$' :: '\x7b' :: (k.chars ++ ':' :: '-' :: (f ++ closing :: rest))) =
      v?.elim f (·.chars) ++ rest := by
  rw [replaceRounds, round_token hk hf hr, replaceRounds_of_no_dollar (no_dollar_token hf hr)]

/-- Nothing goes wrong in the rounds. -/
theorem misfitWithin_token
    (hk : lookup sources event k.name = .ok (v?.map fun v => .str (String.ofList v.chars)))
    (hf : ∀ c ∈ f, inBody c = true) (hr : ∀ c ∈ rest, c ≠ '$') (n : Nat) :
    misfitWithin (lookup sources event) (n + 1)
      ('$' :: '\x7b' :: (k.chars ++ ':' :: '-' :: (f ++ closing :: rest))) = none := by
  have hrest : Fits (lookup sources event) rest := by simpa using fits_append hr fits_nil
  have hfits : Fits (lookup sources event)
      ('$' :: '\x7b' :: (k.chars ++ ':' :: '-' :: (f ++ closing :: rest))) := by
    refine fits_opening_of_some (k.body?_separated hf rest) ?_ hrest
    rw [k.keyOf_separated, hk]
    exact succeeds_map_str v? _
  have hround := round_token hk hf hr
  rw [misfitWithin_succ hfits]
  change misfitWithin _ n (round (lookupText sources event) false _) = none
  rw [hround]
  exact misfitWithin_of_no_dollar (no_dollar_token hf hr) n

end Token

/-! ### Tokens that do not resolve -/

namespace Template

/-- There are only texts and tokens without a fallback whose keys resolve to nothing. -/
def Unresolved (sources : Sources) (event : Option Event) : Template → Prop
  | nil => True
  | text _ rest => rest.Unresolved sources event
  | token k rest => lookup sources event k.name = .ok none ∧ rest.Unresolved sources event
  | escape _ _ | tokenOr _ _ _ => False

/-- The meaning of keys none of which resolves. -/
def unknown : Meaning := fun _ => none

namespace Unresolved

variable {sources : Sources} {event : Option Event} {d : Template}

/-- The tokens are well placed, as none of them resolves. -/
theorem wellPlaced (h : d.Unresolved sources event) : d.WellPlaced unknown := by
  induction d with
  | nil => trivial
  | text s rest ih => exact ih h
  | token k rest ih => exact ih h.2
  | escape | tokenOr => exact h.elim

/-- There is nothing to shield. -/
theorem shielded_eq_written (h : d.Unresolved sources event) : d.shielded = d.written := by
  induction d with
  | nil => rfl
  | text s rest ih => rw [shielded, written, ih h]
  | token k rest ih => rw [shielded, written, ih h.2]
  | escape | tokenOr => exact h.elim

/-- The look-ups of the keys succeed and find nothing. -/
theorem lookup_eq_none (h : d.Unresolved sources event) {k : Key} (hk : k ∈ d.keys) :
    lookup sources event k.name = .ok none := by
  induction d with
  | nil => simp [keys] at hk
  | text s rest ih => exact ih h hk
  | token k' rest ih =>
    rcases List.mem_cons.1 hk with rfl | hk
    · exact h.1
    · exact ih h.2 hk
  | escape | tokenOr => exact h.elim

/-- A step escapes all tokens. -/
theorem no_dollar_step (h : d.Unresolved sources event) :
    ∀ c ∈ (d.step unknown).shielded, c ≠ '$' := by
  induction d with
  | nil => simp [step, shielded]
  | text s rest ih =>
    intro c hc
    rcases List.mem_append.1 hc with hc | hc
    · exact s.ne_dollar_of_mem hc
    · exact ih h c hc
  | token k rest ih =>
    simp only [step, unknown, shielded, List.mem_cons, List.mem_append]
    rintro c (rfl | hc | rfl | hc)
    · decide
    · exact k.ne_dollar_of_mem hc
    · decide
    · exact ih h.2 c hc
  | escape | tokenOr => exact h.elim

/-- The shields of the escaped tokens come off again. -/
theorem unshield_step (h : d.Unresolved sources event) :
    unshield (d.step unknown).shielded = d.written := by
  induction d with
  | nil => rfl
  | text s rest ih =>
    rw [step, shielded, unshield_append, unshield_of_not_mem s.shield_not_mem, ih h, written]
  | token k rest ih =>
    rw [step, unknown]
    exact (k.unshield_escaped _).trans (by rw [ih h.2, written])
  | escape | tokenOr => exact h.elim

/-- The text of a fallback that is not literal, before and after a step: plain text, its first
token, and the rest. -/
theorem exists_token (h : d.Unresolved sources event) (hl : d.isLiteral = false) :
    ∃ (p : Plain) (b : Key) (r : Template), r.Unresolved sources event ∧
      d.written = p.chars ++ '$' :: '\x7b' :: (b.chars ++ closing :: r.written) ∧
      (d.step unknown).shielded =
        p.chars ++ shield :: (b.chars ++ closing :: (r.step unknown).shielded) := by
  induction d with
  | nil => simp [isLiteral] at hl
  | text s rest ih =>
    obtain ⟨p, b, r, hr, hw, hs⟩ := ih h hl
    refine ⟨⟨s.chars ++ p.chars, ?_⟩, b, r, hr, ?_, ?_⟩
    · intro c hc
      exact (List.mem_append.1 hc).elim (s.clear c) (p.clear c)
    · rw [written, hw, List.append_assoc]
    · rw [step, shielded, hs, List.append_assoc]
  | token k rest ih => exact ⟨⟨[], by simp⟩, k, rest, h.2, rfl, rfl⟩
  | escape | tokenOr => exact h.elim

/-- No closing brace comes before the first token. -/
theorem written_ne_closing_cons (h : d.Unresolved sources event) (cs : List Char) :
    d.written ≠ closing :: cs := by
  induction d with
  | nil => simp [written]
  | text s rest ih =>
    cases hs : s.chars with
    | nil =>
      rw [written, hs]
      exact ih h
    | cons c cs' =>
      have hc : inBody c = true := s.inBody_of_mem (hs ▸ List.mem_cons_self)
      rw [written, hs]
      intro he
      rw [(List.cons.inj he).1] at hc
      exact absurd hc (by decide)
  | token k rest ih => simp [written, closing]
  | escape | tokenOr => exact h.elim

/-- Shielding leaves a token with such a fallback as it is. -/
theorem shieldEscapes_tokenOr (h : d.Unresolved sources event) (k : Key) :
    shieldEscapes (tokenOr k d nil).written = (tokenOr k d nil).written := by
  have he := shieldEscapes_written (tokenOr k d nil) []
  simpa [shieldEscapes, shielded, written, h.shielded_eq_written] using he

/-- A token whose fallback holds a token is not innermost. -/
theorem body?_tokenOr (h : d.Unresolved sources event) (hl : d.isLiteral = false) (k : Key) :
    body? (k.chars ++ ':' :: '-' :: (d.written ++ [closing])) = none := by
  obtain ⟨p, b, r, _, hw, _⟩ := h.exists_token hl
  have hp := body?_append_dollar (k.inBody_separated fun _ => p.inBody_of_mem)
    ('\x7b' :: (b.chars ++ closing :: r.written) ++ [closing])
  simpa [hw] using hp

/-- In a token with such a fallback, the first round escapes the tokens of the fallback. -/
theorem round_tokenOr (h : d.Unresolved sources event) (hl : d.isLiteral = false) (k : Key) :
    round (lookupText sources event) false (tokenOr k d nil).written =
      '$' :: '\x7b' :: (k.chars ++ ':' :: '-' :: ((d.step unknown).shielded ++ [closing])) := by
  have hnone : ∀ b ∈ d.keys, lookupText sources event b.name =
      (unknown b).map fun v => String.ofList v.written := by
    intro b hb
    rw [lookupText_of_lookup (h.lookup_eq_none hb)]
    rfl
  have hd := round_shielded h.wellPlaced hnone (fun _ _ v hv => by cases hv) [closing]
  rw [h.shielded_eq_written] at hd
  rw [written, written, round_opening_of_none (h.body?_tokenOr hl k),
    round_append fun _ => k.ne_dollar_of_mem, round_cons (by decide), round_cons (by decide), hd]
  simp [round]

/-- Nothing goes wrong in the first round. -/
theorem fits_tokenOr (h : d.Unresolved sources event) (hl : d.isLiteral = false) (k : Key) :
    Fits (lookup sources event) (tokenOr k d nil).written := by
  have hd : Fits (lookup sources event) (d.written ++ [closing]) := by
    rw [← h.shielded_eq_written]
    exact fits_shielded h.wellPlaced (fun b hb => Or.inl (h.lookup_eq_none hb))
      (fits_cons (by decide) fits_nil)
  exact fits_opening_of_none (h.body?_tokenOr hl k)
    (fits_append (fun _ => k.ne_dollar_of_mem)
      (fits_cons (by decide) (fits_cons (by decide) hd)))

end Unresolved

section Replaced

variable {sources : Sources} {event : Option Event} {k : Key} {d : Template} {v? : Option Plain}

/-- Neither a plain value nor what stands in its place has a shield. -/
theorem shield_not_mem_elim {f : List Char} (hf : shield ∉ f) : shield ∉ v?.elim f (·.chars) := by
  cases v? with
  | none => exact hf
  | some v => exact v.shield_not_mem

/-- A fallback without tokens gives way to the value, and without one stands for the token. -/
theorem replaced_tokenOr_of_isLiteral (hd : d.Unresolved sources event) (hl : d.isLiteral = true)
    (hk : lookup sources event k.name = .ok (v?.map fun v => .str (String.ofList v.chars))) :
    sources.replaced event (String.ofList (tokenOr k d nil).written) =
      .ok (String.ofList (v?.elim d.written (·.chars))) := by
  have hbody : ∀ c ∈ d.written, inBody c = true := by
    rw [← hd.shielded_eq_written]
    exact inBody_of_isLiteral hl
  have hnil : ∀ c ∈ ([] : List Char), c ≠ '$' := by simp
  have hrounds : replaceRounds (lookupText sources event) rounds (tokenOr k d nil).written =
      v?.elim d.written (·.chars) ++ [] := replaceRounds_token hk hbody hnil 7
  have hmisfit : misfitWithin (lookup sources event) rounds (tokenOr k d nil).written = none :=
    misfitWithin_token hk hbody hnil 7
  rw [← hd.shieldEscapes_tokenOr k] at hmisfit
  rw [replaced_ofList (shield_not_mem_written _) hmisfit, hd.shieldEscapes_tokenOr, hrounds,
    List.append_nil, unshield_of_not_mem (shield_not_mem_elim d.shield_not_mem_written)]

/-- A fallback is cut off at the end of its first token; what comes after it stays, and so does the
closing brace of the outer token. -/
theorem replaced_tokenOr_of_token {p : Plain} {b : Key} {r : Template}
    (hd : d.Unresolved sources event) (hl : d.isLiteral = false) (hr : r.Unresolved sources event)
    (hs : (d.step unknown).shielded =
      p.chars ++ shield :: (b.chars ++ closing :: (r.step unknown).shielded))
    (hk : lookup sources event k.name = .ok (v?.map fun v => .str (String.ofList v.chars))) :
    sources.replaced event (String.ofList (tokenOr k d nil).written) =
      .ok (String.ofList (v?.elim (p.chars ++ opening ++ b.chars) (·.chars) ++
        (r.written ++ [closing]))) := by
  have hbody : ∀ c ∈ p.chars ++ shield :: b.chars, inBody c = true := by
    simp only [List.mem_append, List.mem_cons]
    rintro c (hc | rfl | hc)
    · exact p.inBody_of_mem hc
    · decide
    · exact b.inBody_of_mem hc
  have hrest : ∀ c ∈ (r.step unknown).shielded ++ [closing], c ≠ '$' := by
    simp only [List.mem_append, List.mem_singleton]
    rintro c (hc | rfl)
    · exact hr.no_dollar_step c hc
    · decide
  -- after the first round, the closing brace of the first inner token ends the outer one
  have hround : round (lookupText sources event) false (tokenOr k d nil).written =
      '$' :: '\x7b' :: (k.chars ++ ':' :: '-' :: ((p.chars ++ shield :: b.chars) ++
        closing :: ((r.step unknown).shielded ++ [closing]))) := by
    simp [hd.round_tokenOr hl, hs]
  have hrounds := replaceRounds_token hk hbody hrest 6
  have hmisfit := misfitWithin_token hk hbody hrest 6
  rw [← hround] at hrounds hmisfit
  have hfirst : misfitWithin (lookup sources event) rounds
      (shieldEscapes (tokenOr k d nil).written) = none := by
    rw [hd.shieldEscapes_tokenOr, rounds, misfitWithin_succ (hd.fits_tokenOr hl k)]
    exact hmisfit
  have hvalue : unshield (v?.elim (p.chars ++ shield :: b.chars) (·.chars)) =
      v?.elim (p.chars ++ opening ++ b.chars) (·.chars) := by
    cases v? with
    | none =>
      calc unshield (p.chars ++ shield :: b.chars)
          = unshield p.chars ++ unshield [shield] ++ unshield b.chars := by
            rw [← unshield_append, ← unshield_append]
            simp
        _ = p.chars ++ opening ++ b.chars := by
            rw [unshield_of_not_mem p.shield_not_mem, unshield_of_not_mem b.shield_not_mem]
            rfl
    | some v => exact unshield_of_not_mem v.shield_not_mem
  rw [replaced_ofList (shield_not_mem_written _) hfirst, hd.shieldEscapes_tokenOr]
  change Except.ok (String.ofList (unshield (replaceRounds _ 7 _))) = _
  rw [hrounds, unshield_append, unshield_append, hvalue, hr.unshield_step]
  rfl

end Replaced

/-- What comes out of a token with a fallback whose tokens do not resolve: the value or else the
fallback, where a token cuts the fallback off and leaves the text behind it. -/
def spilled (v? : Option Plain) (d : Template) : List Char :=
  match cut? [closing] d.written with
  | none => v?.elim d.written (·.chars)
  | some (before, after) => v?.elim before (·.chars) ++ (after ++ [closing])

/-- A token with a plain value or none, and a fallback whose tokens do not resolve, is replaced by
the value, or without one by the fallback as it is, just when the fallback has no token, or when
there is no value and the first token ends the fallback. Otherwise the end of the fallback is
spilled: `spilled` is the result in any case. -/
theorem replaced_unresolved_fallback (sources : Sources) (event : Option Event) (k : Key)
    (d : Template) (v? : Option Plain) (hd : d.Unresolved sources event)
    (hk : lookup sources event k.name = .ok (v?.map fun v => .str (String.ofList v.chars))) :
    sources.replaced event (String.ofList (tokenOr k d nil).written) =
      .ok (String.ofList (spilled v? d)) ∧
    (sources.replaced event (String.ofList (tokenOr k d nil).written) =
        .ok (String.ofList (v?.elim d.written (·.chars))) ↔
      ∀ before after, cut? [closing] d.written = some (before, after) →
        v? = none ∧ after = []) := by
  cases hl : d.isLiteral with
  | true =>
    have hbody : closing ∉ d.written := by
      rw [← hd.shielded_eq_written]
      exact fun hc => absurd (inBody_of_isLiteral hl _ hc) (by decide)
    rw [replaced_tokenOr_of_isLiteral hd hl hk, spilled, cut?_of_not_mem hbody]
    simp
  | false =>
    obtain ⟨p, b, r, hr, hw, hs⟩ := hd.exists_token hl
    have hbefore : closing ∉ p.chars ++ opening ++ b.chars := by
      simp only [List.mem_append, not_or]
      refine ⟨⟨fun hc => ?_, by decide⟩, fun hc => ?_⟩
      · exact absurd (p.inBody_of_mem hc) (by decide)
      · exact absurd (b.inBody_of_mem hc) (by decide)
    have hd' : d.written = p.chars ++ opening ++ b.chars ++ closing :: r.written := by
      simp [hw, opening]
    have hcut : cut? [closing] d.written = some (p.chars ++ opening ++ b.chars, r.written) := by
      rw [hd', cut?_append_of_not_mem hbefore]
    rw [replaced_tokenOr_of_token hd hl hr hs hk, spilled, hcut]
    refine ⟨rfl, ?_, ?_⟩
    · rintro he before after ⟨rfl, rfl⟩
      have he' := String.ofList_injective (Except.ok.inj he)
      cases v? with
      | some v => simp at he'
      | none =>
        rw [Option.elim_none, Option.elim_none, hd', List.append_right_inj] at he'
        refine ⟨rfl, ?_⟩
        cases hrw : r.written with
        | nil => rfl
        | cons c cs =>
          rw [hrw] at he'
          exact absurd (hrw.trans (congrArg (· :: cs) (List.cons.inj he').1))
            (hr.written_ne_closing_cons cs)
    · intro h
      obtain ⟨rfl, hrw⟩ := h _ _ rfl
      rw [hd', hrw]
      rfl

/-- Without a value, the first token takes the closing brace of the outer one away. -/
theorem replaced_unresolved_fallback_cut :
    Sources.replaced ⟨[], .given []⟩ none "$\x7bz:-p$\x7bu\x7dq$\x7bw\x7d\x7d" =
        .ok "p$\x7buq$\x7bw\x7d\x7d" ∧
      Sources.replaced ⟨[], .given []⟩ none "$\x7bz:-p$\x7bu\x7dq$\x7bw\x7d\x7d" ≠
        .ok "p$\x7bu\x7dq$\x7bw\x7d" := by
  let u : Key := ⟨⟨['u'], by simp [inBody, shield]⟩, rfl⟩
  let w : Key := ⟨⟨['w'], by simp [inBody, shield]⟩, rfl⟩
  let z : Key := ⟨⟨['z'], by simp [inBody, shield]⟩, rfl⟩
  let p : Plain := ⟨['p'], by simp [inBody, shield]⟩
  let q : Plain := ⟨['q'], by simp [inBody, shield]⟩
  let d := text p (token u (text q (token w nil)))
  have hd : d.Unresolved ⟨[], .given []⟩ none := ⟨by cbv, by cbv, trivial⟩
  obtain ⟨hspilled, hkept⟩ := replaced_unresolved_fallback ⟨[], .given []⟩ none z d none hd (by cbv)
  refine ⟨hspilled, fun h => ?_⟩
  have hafter := (hkept.1 h ['p', '$', '\x7b', 'u'] ['q', '$', '\x7b', 'w', '\x7d'] (by decide)).2
  cases hafter

/-- With a value, the closing brace of the outer token is left behind it. -/
theorem replaced_unresolved_fallback_ne_value :
    ¬ ∀ (sources : Sources) (event : Option Event) (k : Key) (d : Template) (v : Plain),
      d.Unresolved sources event →
      lookup sources event k.name = .ok (some (.str (String.ofList v.chars))) →
      sources.replaced event (String.ofList (tokenOr k d nil).written) =
        .ok (String.ofList v.chars) := by
  intro h
  let k : Key := ⟨⟨['k'], by simp [inBody, shield]⟩, rfl⟩
  let u : Key := ⟨⟨['u'], by simp [inBody, shield]⟩, rfl⟩
  have hv := h ⟨[(.str "k", .str "v")], .given []⟩ none k (token u nil)
    ⟨['v'], by simp [inBody, shield]⟩
    ⟨by cbv, trivial⟩ (by cbv)
  have hv' : Sources.replaced ⟨[(.str "k", .str "v")], .given []⟩ none "$\x7bk:-$\x7bu\x7d\x7d" =
      .ok "v\x7d" := by cbv
  exact absurd (Except.ok.inj (hv'.symm.trans hv)) (by decide)

end Template
end ConfigAssembly.Substitution
