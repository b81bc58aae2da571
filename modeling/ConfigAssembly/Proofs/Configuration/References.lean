import ConfigAssembly.Proofs.Configuration.Properties

/-!
# Properties that refer to earlier ones

A block whose properties refer to earlier ones only is expanded while it is read. What it leaves is
`stored`: each value with its references filled in by the values stored before. None of these holds
a token, so one round fills a text with references in (`round_written`), and a chain of references
may be longer than the rounds of a replacement: every property of it takes rounds of its own.
`Holds` is the invariant of the reading, kept by each property (`Holds.read`).
-/

namespace ConfigAssembly

open Substitution

namespace Substitution

/-! ### Texts with references -/

/-- A piece of a text: plain, or a reference to a property by its name. -/
inductive Piece where
  | text (s : Plain)
  | reference (name : Key)

/-- A text with references. -/
abbrev Referring := List Piece

/-- Values of names. -/
abbrev Values := String → Option (List Char)

/-- Every value is plain. -/
def Values.Clear (values : Values) : Prop :=
  ∀ name cs, values name = some cs → ∀ c ∈ cs, inBody c = true ∧ c ≠ shield

namespace Referring

/-- How a text with references is written. -/
def written : Referring → List Char
  | [] => []
  | .text s :: ps => s.chars ++ written ps
  | .reference k :: ps => '$' :: '\x7b' :: (k.chars ++ closing :: written ps)

/-- The names that a text refers to. -/
def names : Referring → List String
  | [] => []
  | .text _ :: ps => names ps
  | .reference k :: ps => k.name :: names ps

/-- The text with each reference replaced by the value of its name; one without a value stays. -/
def filled (values : Values) : Referring → List Char
  | [] => []
  | .text s :: ps => s.chars ++ filled values ps
  | .reference k :: ps =>
    (values k.name).getD ('$' :: '\x7b' :: (k.chars ++ [closing])) ++ filled values ps

variable {values : Values} {resolve : String → Option String}

/-- The shield is not written. -/
theorem shield_not_mem_written (t : Referring) : shield ∉ t.written := by
  induction t with
  | nil => simp [written]
  | cons p ps ih =>
    cases p with
    | text s => simp [written, s.shield_not_mem, ih]
    | reference k =>
      have hmarks : shield ≠ '$' ∧ shield ≠ '\x7b' ∧ shield ≠ closing := by decide
      simp [written, hmarks, k.shield_not_mem, ih]

/-- A text with references has no escapes. -/
theorem shieldEscapes_written (t : Referring) : shieldEscapes t.written = t.written := by
  induction t with
  | nil => rfl
  | cons p ps ih =>
    cases p with
    | text s => rw [written, shieldEscapes_append fun _ => s.ne_dollar_of_mem, ih]
    | reference k =>
      rw [written, shieldEscapes_opening, shieldEscapes_append fun _ => k.ne_dollar_of_mem,
        shieldEscapes_cons (by decide), ih]

/-- One round fills the references in. -/
theorem round_written {t : Referring}
    (h : ∀ name ∈ t.names, ∃ cs, values name = some cs ∧ resolve name = some (String.ofList cs)) :
    round resolve false t.written = t.filled values := by
  induction t with
  | nil => exact round_nil false
  | cons p ps ih =>
    cases p with
    | text s => rw [written, round_append fun _ => s.ne_dollar_of_mem, ih h, filled]
    | reference k =>
      obtain ⟨⟨cs, hcs, hresolve⟩, hps⟩ := List.forall_mem_cons.1 h
      have hvalue : resolve (String.ofList k.chars) = some (String.ofList cs) := hresolve
      rw [written, round_opening_of_some (body?_append_closing (fun _ => k.inBody_of_mem) _),
        replacement_of_cut?_eq_none k.whole, hvalue, ih hps, filled, hcs]
      simp

/-- Filled in with plain values, a text is plain. -/
theorem clear_filled {t : Referring} (hv : values.Clear)
    (h : ∀ name ∈ t.names, (values name).isSome) :
    ∀ c ∈ t.filled values, inBody c = true ∧ c ≠ shield := by
  induction t with
  | nil => simp [filled]
  | cons p ps ih =>
    cases p with
    | text s =>
      intro c hc
      rcases List.mem_append.1 hc with hc | hc
      · exact s.clear c hc
      · exact ih h c hc
    | reference k =>
      obtain ⟨hk, hps⟩ := List.forall_mem_cons.1 h
      obtain ⟨cs, hcs⟩ := Option.isSome_iff_exists.1 hk
      intro c hc
      rw [filled, hcs, Option.getD_some, List.mem_append] at hc
      rcases hc with hc | hc
      · exact hv k.name cs hcs c hc
      · exact ih hps c hc

/-- References to names that resolve to texts do no harm. -/
theorem fits_written {lookedUp : String → Except Fault (Option Value)} {t : Referring}
    (h : ∀ name ∈ t.names, Succeeds (lookedUp name)) : Fits lookedUp t.written := by
  induction t with
  | nil => exact fits_nil
  | cons p ps ih =>
    cases p with
    | text s => exact fits_append (fun _ => s.ne_dollar_of_mem) (ih h)
    | reference k =>
      obtain ⟨hk, hps⟩ := List.forall_mem_cons.1 h
      have hkey : keyOf k.chars = k.name := by rw [keyOf, k.whole]; rfl
      exact fits_opening_of_some (body?_append_closing (fun _ => k.inBody_of_mem) _)
        (hkey ▸ hk) (ih hps)

/-- The replacement of tokens fills the references to plain values in. -/
theorem replaced_of_lookup {s : Sources} {event : Option Event} {t : Referring}
    (hv : values.Clear)
    (h : ∀ name ∈ t.names, ∃ cs, values name = some cs ∧
      lookup s event name = .ok (some (.str (String.ofList cs)))) :
    s.replaced event (String.ofList t.written) = .ok (String.ofList (t.filled values)) := by
  have hsome : ∀ name ∈ t.names, (values name).isSome := by
    intro name hname
    obtain ⟨cs, hcs, _⟩ := h name hname
    rw [hcs]
    rfl
  have hclear := clear_filled hv hsome
  have hdollar : ∀ c ∈ t.filled values, c ≠ '$' := by
    rintro c hc rfl
    exact absurd (hclear _ hc).1 (by decide)
  have hshield : shield ∉ t.filled values := fun hc => (hclear _ hc).2 rfl
  have hround : round (lookupText s event) false t.written = t.filled values := by
    refine round_written fun name hname => ?_
    obtain ⟨cs, hcs, hlookup⟩ := h name hname
    exact ⟨cs, hcs, lookupText_of_lookup hlookup⟩
  have hfits : Fits (lookup s event) t.written := by
    refine fits_written fun name hname => ?_
    obtain ⟨cs, _, hlookup⟩ := h name hname
    exact Or.inr ⟨_, hlookup⟩
  have hmisfit : misfitWithin (lookup s event) rounds t.written = none := by
    rw [rounds, misfitWithin_succ hfits]
    change misfitWithin _ _ (round (lookupText s event) false _) = none
    rw [hround]
    exact misfitWithin_of_no_dollar hdollar _
  rw [replaced_ofList t.shield_not_mem_written (t.shieldEscapes_written.symm ▸ hmisfit),
    shieldEscapes_written, rounds, replaceRounds, hround, replaceRounds_of_no_dollar hdollar,
    unshield_of_not_mem hshield]

end Referring
end Substitution

/-! ### Declarations one after the other -/

/-- A property as it is declared. -/
structure Declaration where
  /-- Its name. -/
  key : Key
  /-- The name is looked up among the properties. -/
  isProperty : Substitution.isProperty key.name = true
  /-- Its value as it is written. -/
  value : Referring

namespace Declaration

/-- The name of a property. -/
def name (d : Declaration) : String := d.key.name

/-- An element declares a property. -/
def DeclaredBy {σ : Type} (d : Declaration) (t : Tree Value σ) : Prop :=
  propertyName? t = some d.name ∧ propertyValue t = .str (String.ofList d.value.written)

/-- The values with one more stored, its references filled in by those before. -/
def store (values : Values) (d : Declaration) : Values :=
  Function.update values d.name (some (d.value.filled values))

/-- The values that declarations leave one after the other. -/
def stored (ds : List Declaration) : Values := ds.foldl store fun _ => none

/-- Every declaration refers to names that are declared before it. -/
def Backward (ds : List Declaration) : Prop :=
  ∀ before d after, ds = before ++ d :: after →
    ∀ name ∈ d.value.names, ∃ e ∈ before, e.name = name

/-- The last declaration is stored last. -/
theorem stored_concat (ds : List Declaration) (d : Declaration) :
    stored (ds ++ [d]) = store (stored ds) d := by
  simp [stored, List.foldl_append]

/-- A name that is declared has a value. -/
theorem isSome_stored {ds : List Declaration} {name : String} (h : ∃ d ∈ ds, d.name = name) :
    (stored ds name).isSome := by
  induction ds using List.reverseRecOn with
  | nil => simp at h
  | append_singleton ds d ih =>
    rw [stored_concat, store]
    by_cases hd : d.name = name
    · subst hd
      simp
    · rw [Function.update_of_ne (Ne.symm hd)]
      obtain ⟨e, he, hname⟩ := h
      rcases List.mem_append.1 he with he | he
      · exact ih ⟨e, he, hname⟩
      · exact absurd (List.mem_singleton.1 he ▸ hname) hd

/-- The last declaration of a name gives its value. -/
theorem stored_of_last {ds : List Declaration} (before : List Declaration) (d : Declaration)
    (h : ∀ e ∈ ds, e.name ≠ d.name) :
    stored (before ++ d :: ds) d.name = some (d.value.filled (stored before)) := by
  induction ds using List.reverseRecOn with
  | nil => simp [stored_concat, store]
  | append_singleton ds e ih =>
    have he : e.name ≠ d.name := h e (by simp)
    rw [← List.cons_append, ← List.append_assoc, stored_concat, store,
      Function.update_of_ne (Ne.symm he)]
    exact ih fun f hf => h f (by simp [hf])

end Declaration

/-! ### Reading a block -/

open Declaration

/-- Sources hold values of properties, which are plain. -/
structure Holds (s : Sources) (values : Values) : Prop where
  clear : values.Clear
  isProperty : ∀ name, (values name).isSome → isProperty name = true
  get? : ∀ name, s.properties.get? (.str name) =
    (values name).map fun cs => .str (String.ofList cs)

namespace Holds

variable {s : Sources} {values : Values}

/-- At the start there are no values. -/
theorem start (environment : Assoc String String) : Holds (.start environment) (stored []) where
  clear := by
    rintro name cs ⟨⟩
  isProperty := by
    rintro name ⟨⟩
  get? _ := rfl

/-- A name with a value resolves to it. -/
theorem lookup_eq (h : Holds s values) (event : Option Event) {name : String}
    (hname : (values name).isSome) :
    ∃ cs, values name = some cs ∧ lookup s event name = .ok (some (.str (String.ofList cs))) := by
  obtain ⟨cs, hcs⟩ := Option.isSome_iff_exists.1 hname
  refine ⟨cs, hcs, ?_⟩
  rw [lookup_of_isProperty (h.isProperty name hname), h.get? name, hcs]
  rfl

/-- References to names with values are filled in. -/
theorem replaced_referring (h : Holds s values) (event : Option Event) {t : Referring}
    (ht : ∀ name ∈ t.names, (values name).isSome) :
    s.replaced event (String.ofList t.written) = .ok (String.ofList (t.filled values)) :=
  Referring.replaced_of_lookup h.clear fun name hname => h.lookup_eq event (ht name hname)

/-- A property that refers to names with values is stored with its references filled in. -/
theorem read {σ : Type} (h : Holds s values) {t : Tree Value σ} {d : Declaration}
    (hd : d.DeclaredBy t) (hnames : ∀ name ∈ d.value.names, (values name).isSome) :
    ∃ s', readProperty s t = .ok s' ∧ Holds s' (d.store values) := by
  have hread := readProperty_of_textual s hd.1 hd.2
  rw [h.replaced_referring none hnames] at hread
  refine ⟨_, hread, ?_, ?_, ?_⟩
  · intro name cs hcs
    by_cases hname : name = d.name
    · rw [hname, store, Function.update_self] at hcs
      obtain rfl := Option.some.inj hcs
      exact Referring.clear_filled h.clear hnames
    · rw [store, Function.update_of_ne hname] at hcs
      exact h.clear name cs hcs
  · intro name hsome
    by_cases hname : name = d.name
    · rw [hname]
      exact d.isProperty
    · rw [store, Function.update_of_ne hname] at hsome
      exact h.isProperty name hsome
  · intro name
    change (s.properties.insert _ _).get? _ = _
    rw [Assoc.get?_insert_str, Value.str_beq_str, h.get? name]
    by_cases hname : name = d.name
    · subst hname
      simp [store]
    · rw [if_neg (by simpa using Ne.symm hname), store, Function.update_of_ne hname]

/-- Several properties, each of which refers to names with values. -/
theorem readAll {σ : Type} {before left : List Declaration} {ts : List (Tree Value σ)}
    (h : Holds s (stored before)) (hts : List.Forall₂ DeclaredBy left ts)
    (hback : Backward (before ++ left)) :
    ∃ s', ts.foldlM readProperty s = .ok s' ∧ Holds s' (stored (before ++ left)) := by
  induction hts generalizing before s with
  | nil =>
    rw [List.append_nil]
    exact ⟨s, rfl, h⟩
  | @cons d t left ts hd _ ih =>
    have hnames : ∀ name ∈ d.value.names, (stored before name).isSome :=
      fun name hname => isSome_stored (hback before d left rfl name hname)
    obtain ⟨s₁, hs₁, hnext⟩ := h.read hd hnames
    rw [← stored_concat] at hnext
    have hsplit : before ++ d :: left = before ++ [d] ++ left := by simp
    rw [hsplit] at hback ⊢
    obtain ⟨s', hs', hend⟩ := ih hnext hback
    refine ⟨s', ?_, hend⟩
    rw [List.foldlM_cons, hs₁]
    exact hs'

end Holds

namespace Configuration

/-- Properties that refer to earlier ones are expanded when a configuration is made, however long
the chains of references are: each name has the value of its last declaration, with the references
in it replaced by what was stored before, no stored value has a dollar, and texts with references
have these replaced by the stored values. -/
theorem make_backward {root : Node} (registry : Registry) (visitors : VisitorRegistry)
    (environment : Assoc String String) {ds : List Declaration}
    (hds : List.Forall₂ DeclaredBy ds root.declarations) (hback : Backward ds) :
    ∃ c log, make root registry visitors environment [] = (.ok c, log) ∧
      (∀ name, c.sources.properties.get? (.str name) =
        (stored ds name).map fun cs => .str (String.ofList cs)) ∧
      (∀ before d after, ds = before ++ d :: after → (∀ e ∈ after, e.name ≠ d.name) →
        stored ds d.name = some (d.value.filled (stored before))) ∧
      (∀ name cs, stored ds name = some cs → '$' ∉ cs) ∧
      ∀ event (t : Referring), (∀ name ∈ t.names, ∃ d ∈ ds, d.name = name) →
        c.sources.replaced event (String.ofList t.written) =
          .ok (String.ofList (t.filled (stored ds))) := by
  obtain ⟨s, hs, hholds⟩ := (Holds.start environment).readAll hds hback
  rw [List.nil_append] at hholds
  obtain ⟨c, log, hc, hsources⟩ := exists_make hs registry visitors []
  replace hsources : c.sources = s := hsources
  refine ⟨c, log, hc, ?_, ?_, ?_, ?_⟩
  · rw [hsources]
    exact hholds.get?
  · rintro before d after rfl hafter
    exact stored_of_last before d hafter
  · intro name cs hcs hdollar
    exact absurd (hholds.clear name cs hcs _ hdollar).1 (by decide)
  · intro event t ht
    rw [hsources]
    exact hholds.replaced_referring event fun name hname => isSome_stored (ht name hname)

/-- A chain of ten references is expanded, whose properties all have the same name. -/
theorem make_backward_chain :
    ∃ c log, make (Node.declaring (("a", "x") :: List.replicate 9 ("a", "$\x7ba\x7dx"))) .empty
        .standard [] [] = (.ok c, log) ∧
      c.sources.properties.get? (.str "a") = some (.str "xxxxxxxxxx") ∧
      c.sources.replaced none "-$\x7ba\x7d" = .ok "-xxxxxxxxxx" := by
  let a : Key := ⟨⟨['a'], by simp [inBody, shield]⟩, rfl⟩
  let x : Plain := ⟨['x'], by simp [inBody, shield]⟩
  let first : Declaration := ⟨a, by decide, [.text x]⟩
  let next : Declaration := ⟨a, by decide, [.reference a, .text x]⟩
  have hds : List.Forall₂ DeclaredBy (first :: List.replicate 9 next)
      (Node.declaring (("a", "x") :: List.replicate 9 ("a", "$\x7ba\x7dx"))).declarations := by
    refine .cons ⟨rfl, rfl⟩ ?_
    repeat refine .cons ⟨rfl, rfl⟩ ?_
    exact .nil
  have hback : Backward (first :: List.replicate 9 next) := by
    intro before d after hsplit name hname
    cases before with
    | nil =>
      obtain ⟨rfl, _⟩ := List.cons.inj hsplit
      cases hname
    | cons e before =>
      obtain ⟨rfl, htail⟩ := List.cons.inj hsplit
      have hd : d ∈ List.replicate 9 next := by
        rw [htail]
        simp
      obtain rfl := List.eq_of_mem_replicate hd
      exact ⟨first, List.mem_cons_self, (List.mem_singleton.1 hname).symm⟩
  have hvalue : stored (first :: List.replicate 9 next) "a" = some (List.replicate 10 'x') := by
    decide +kernel
  obtain ⟨c, log, hc, hget, _, _, hreplaced⟩ := make_backward .empty .standard [] hds hback
  refine ⟨c, log, hc, ?_, ?_⟩
  · rw [hget, hvalue]
    rfl
  · have huse := hreplaced none [.text ⟨['-'], by simp [inBody, shield]⟩, .reference a]
      fun name hname => ⟨first, List.mem_cons_self, (List.mem_singleton.1 hname).symm⟩
    have hname : a.name = "a" := rfl
    simp only [Referring.filled, hname, hvalue] at huse
    exact huse

end Configuration
end ConfigAssembly
