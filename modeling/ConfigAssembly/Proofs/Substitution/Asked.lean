import ConfigAssembly.Proofs.Substitution.Round

/-!
# What a replacement looks up

`keysIn` lists the keys of the tokens that one round replaces, `keysWithin` those of several rounds
one after the other. A round does not tell two look-ups apart that agree on the keys that it has
(`round_congr`, `misfitWithin_congr`), so what comes out depends on what these keys resolve to and
on nothing else (`Sources.replaced_congr_of_asked`). `Sources.asked` are those of the keys that are
names of properties, and `Sources.variablesAsked` those of variables. Sources of texts replace all
tokens unless one of these look-ups fails (`Sources.Textual.replaced_eq`).
-/

namespace ConfigAssembly.Substitution

/-! ### Keys -/

/-- The keys of the tokens that several rounds replace. -/
def keysWithin (resolve : String → Option String) : Nat → List Char → List String
  | 0, _ => []
  | n + 1, cs => keysIn false cs ++ keysWithin resolve n (round resolve false cs)

section Congruence

variable {resolve resolve' : String → Option String}

/-- What stands for a token depends on what its key resolves to. -/
theorem replacement_congr {body : List Char} (h : resolve (keyOf body) = resolve' (keyOf body)) :
    replacement resolve body = replacement resolve' body := by
  unfold keyOf at h
  cases hc : cut? [':', '-'] body with
  | none =>
    rw [hc] at h
    change resolve (String.ofList body) = resolve' (String.ofList body) at h
    rw [replacement_of_cut?_eq_none hc, replacement_of_cut?_eq_none hc, h]
  | some p =>
    rw [hc] at h
    change resolve (String.ofList p.1) = resolve' (String.ofList p.1) at h
    simp only [replacement, hc, h]

/-- A round depends on what the keys of its tokens resolve to. -/
theorem round_congr {afterDollar : Bool} {cs : List Char}
    (h : ∀ key ∈ keysIn afterDollar cs, resolve key = resolve' key) :
    round resolve afterDollar cs = round resolve' afterDollar cs := by
  fun_induction keysIn afterDollar cs with
  | case1 => simp
  | case2 => simp [round]
  | case3 afterDollar c d cs hopen body rest hb ih =>
    obtain ⟨⟨rfl, rfl⟩, rfl⟩ : (c = '$' ∧ d = '\x7b') ∧ afterDollar = false := by simpa using hopen
    obtain ⟨hbody, hrest⟩ := List.forall_mem_cons.1 h
    rw [round_opening_of_some hb, round_opening_of_some hb, replacement_congr hbody, ih hrest]
  | case4 afterDollar c d cs hopen hb ih =>
    obtain ⟨⟨rfl, rfl⟩, rfl⟩ : (c = '$' ∧ d = '\x7b') ∧ afterDollar = false := by simpa using hopen
    have hnext := ih h
    rw [round_cons (by decide), round_cons (by decide)] at hnext
    rw [round_opening_of_none hb, round_opening_of_none hb, (List.cons.inj hnext).2]
  | case5 afterDollar c d cs hopen ih =>
    rw [round, round, if_neg hopen, if_neg hopen, ih h]

/-- So do several rounds. -/
theorem replaceRounds_congr {n : Nat} {cs : List Char}
    (h : ∀ key ∈ keysWithin resolve n cs, resolve key = resolve' key) :
    replaceRounds resolve n cs = replaceRounds resolve' n cs := by
  induction n generalizing cs with
  | zero => rfl
  | succ n ih =>
    obtain ⟨hround, hrest⟩ := List.forall_mem_append.1 h
    rw [replaceRounds, replaceRounds, ih hrest, round_congr hround]

end Congruence

/-! ### What goes wrong -/

section Misfits

variable {resolve resolve' : String → Except Fault (Option Value)}

/-- The first look-up that fails depends on the look-ups that are made. -/
theorem firstFault_congr {keys : List String} (h : ∀ key ∈ keys, resolve key = resolve' key) :
    firstFault resolve keys = firstFault resolve' keys := by
  induction keys with
  | nil => rfl
  | cons key keys ih =>
    obtain ⟨hkey, hkeys⟩ := List.forall_mem_cons.1 h
    rw [firstFault, firstFault, hkey, ih hkeys]

/-- The first token that stands for no text depends on what the keys resolve to. -/
theorem misfitIn_congr {resolve resolve' : String → Option Value} {afterDollar : Bool} {parts : Nat}
    {pending : Bool} {cs : List Char}
    (h : ∀ key ∈ keysIn afterDollar cs, resolve key = resolve' key) :
    misfitIn resolve afterDollar parts pending cs =
      misfitIn resolve' afterDollar parts pending cs := by
  fun_induction keysIn afterDollar cs generalizing parts pending with
  | case1 => simp [misfitIn]
  | case2 => simp [misfitIn]
  | case3 afterDollar c d cs hopen body rest hb ih =>
    obtain ⟨hbody, hrest⟩ := List.forall_mem_cons.1 h
    rw [misfitIn, misfitIn, if_pos hopen, if_pos hopen]
    split
    · rename_i body' rest' hb'
      obtain ⟨rfl, rfl⟩ : body = body' ∧ rest = rest' := by simpa [hb] using hb'
      rw [hbody]
      simp only [ih hrest]
    · rename_i hb'
      rw [hb] at hb'
      cases hb'
  | case4 afterDollar c d cs hopen hb ih =>
    rw [misfitIn, misfitIn, if_pos hopen, if_pos hopen]
    split
    · rename_i body' rest' hb'
      rw [hb] at hb'
      cases hb'
    · exact ih h
  | case5 afterDollar c d cs hopen ih =>
    rw [misfitIn, misfitIn, if_neg hopen, if_neg hopen, ih h]

/-- What goes wrong in several rounds depends on the look-ups that they make. -/
theorem misfitWithin_congr {n : Nat} {cs : List Char}
    (h : ∀ key ∈ keysWithin (fun key => (found? (resolve key)).map Value.text) n cs,
      resolve key = resolve' key) :
    misfitWithin resolve n cs = misfitWithin resolve' n cs := by
  induction n generalizing cs with
  | zero => rfl
  | succ n ih =>
    obtain ⟨hround, hrest⟩ := List.forall_mem_append.1 h
    have hfound : ∀ key ∈ keysIn false cs, found? (resolve key) = found? (resolve' key) :=
      fun key hkey => congrArg found? (hround key hkey)
    have hmisfit : misfitIn (fun key => found? (resolve key)) false 0 false cs =
        misfitIn (fun key => found? (resolve' key)) false 0 false cs := misfitIn_congr hfound
    have htext : round (fun key => (found? (resolve key)).map Value.text) false cs =
        round (fun key => (found? (resolve' key)).map Value.text) false cs :=
      round_congr fun key hkey => congrArg (Option.map Value.text) (hfound key hkey)
    rw [misfitWithin, misfitWithin, firstFault_congr hround, hmisfit, ih hrest, htext]

/-- No look-up fails just if each of them comes to an end. -/
theorem firstFault_eq_none_iff {keys : List String} :
    firstFault resolve keys = none ↔ ∀ key ∈ keys, ∃ o, resolve key = .ok o := by
  induction keys with
  | nil => simp [firstFault]
  | cons key keys ih =>
    rw [firstFault, List.forall_mem_cons, ← ih]
    cases resolve key with
    | error f => simp
    | ok o => simp

/-- Look-ups are made one after the other. -/
theorem firstFault_append (keys keys' : List String) :
    firstFault resolve (keys ++ keys') =
      (firstFault resolve keys).or (firstFault resolve keys') := by
  induction keys with
  | nil => rfl
  | cons key keys ih =>
    rw [List.cons_append, firstFault, firstFault, ih]
    cases resolve key <;> rfl

/-- Where every key that is found stands for a text, what goes wrong is the first look-up that
fails. -/
theorem misfitWithin_eq_firstFault
    (h : ∀ key v, resolve key = .ok (some v) → ∃ s, v = .str s) (n : Nat) (cs : List Char) :
    misfitWithin resolve n cs =
      firstFault resolve (keysWithin (fun key => (found? (resolve key)).map Value.text) n cs) := by
  have hfound : ∀ key v, found? (resolve key) = some v → ∃ s, v = .str s := by
    intro key v hv
    cases hr : resolve key with
    | error f => rw [hr] at hv; cases hv
    | ok o =>
      rw [hr] at hv
      exact h key v (by rw [hr]; exact congrArg Except.ok hv)
  induction n generalizing cs with
  | zero => rfl
  | succ n ih =>
    rw [misfitWithin, misfitIn_eq_none hfound, keysWithin, firstFault_append, ← ih]
    cases firstFault resolve (keysIn false cs) <;> rfl

end Misfits

/-! ### Keys that are names of properties, and of variables -/

/-- A key is looked up among the properties, and not in the environment or the event. -/
def isProperty (key : String) : Bool :=
  match cut? [':'] key.toList with
  | some (['e', 'n', 'v'], _) => false
  | some (['e', 'v', 'e', 'n', 't'], _) => false
  | _ => true

/-- The name of a property is looked up among the properties. -/
theorem lookup_of_isProperty {key : String} (h : isProperty key = true) (sources : Sources)
    (event : Option Event) :
    lookup sources event key = Value.written? (sources.properties.get? (.str key)) := by
  unfold isProperty at h
  unfold lookup
  split at h <;> simp_all

/-- What another key resolves to does not depend on the properties. -/
theorem lookup_of_not_isProperty {key : String} (h : isProperty key = false) {s s' : Sources}
    (henv : s.environment = s'.environment) (event : Option Event) :
    lookup s event key = lookup s' event key := by
  unfold isProperty at h
  unfold lookup
  split at h <;> simp_all

/-- The name of the variable that a key is about, if it is looked up in the environment. -/
def variableName? (key : String) : Option String :=
  match cut? [':'] key.toList with
  | some (['e', 'n', 'v'], name) => some (String.ofList name)
  | _ => none

/-- A key about a variable is looked up in the environment. -/
theorem lookup_of_variableName? {key name : String} (h : variableName? key = some name)
    (sources : Sources)
    (event : Option Event) : lookup sources event key = sources.environment.get? name := by
  unfold variableName? at h
  split at h
  · rename_i hc
    rw [lookup, hc, ← Option.some.inj h]
    rfl
  · cases h

/-- Where no event is at hand, other keys are looked up among the properties, or find nothing. -/
theorem lookup_of_variableName?_eq_none {key : String} (h : variableName? key = none)
    (sources : Sources) :
    lookup sources none key = .ok none ∨
      lookup sources none key = Value.written? (sources.properties.get? (.str key)) := by
  unfold variableName? at h
  unfold lookup
  split
  · simp_all
  · exact Or.inl rfl
  · exact Or.inr rfl

end ConfigAssembly.Substitution

namespace ConfigAssembly.Sources

open Substitution

/-- The keys that are looked up while the tokens of a text are replaced. -/
def lookedUp (s : Sources) (event : Option Event) (text : String) : List String :=
  keysWithin (lookupText s event) rounds (shieldEscapes text.toList)

/-- The names of the properties among them. -/
def asked (s : Sources) (event : Option Event) (text : String) : List String :=
  (s.lookedUp event text).filter isProperty

/-- The names of the variables among them. -/
def variablesAsked (s : Sources) (event : Option Event) (text : String) : List String :=
  (s.lookedUp event text).filterMap variableName?

/-- The tokens of a text are replaced unless a look-up fails, and then the first one that does says
why not. -/
theorem Textual.replaced_eq {s : Sources} (h : s.Textual) (event : Option Event) (text : String) :
    s.replaced event text =
      (firstFault (lookup s event) (s.lookedUp event text)).elim (.ok (s.replace event text))
        .error := by
  have hmisfit : s.misfit event text = firstFault (lookup s event) (s.lookedUp event text) :=
    misfitWithin_eq_firstFault (fun _ _ => h.exists_str_of_lookup) _ _
  rw [replaced, hmisfit]
  cases firstFault (lookup s event) (s.lookedUp event text) <;> rfl

/-- What comes out depends, for a given environment, on the properties asked for. -/
theorem replaced_congr_of_asked {s s' : Sources} {event : Option Event} {text : String}
    (henv : s.environment = s'.environment)
    (h : ∀ name ∈ s.asked event text,
      s.properties.get? (.str name) = s'.properties.get? (.str name)) :
    s.replaced event text = s'.replaced event text := by
  have hkeys : ∀ key ∈ s.lookedUp event text, lookup s event key = lookup s' event key := by
    intro key hkey
    cases hp : isProperty key with
    | false => exact lookup_of_not_isProperty hp henv event
    | true =>
      have hname := h key (List.mem_filter.2 ⟨hkey, hp⟩)
      rw [lookup_of_isProperty hp, lookup_of_isProperty hp, hname]
  have hmisfit : s.misfit event text = s'.misfit event text := misfitWithin_congr hkeys
  have hfound : ∀ key ∈ s.lookedUp event text, lookupText s event key = lookupText s' event key :=
    fun key hkey => congrArg (fun o => (found? o).map Value.text) (hkeys key hkey)
  have htext : s.replace event text = s'.replace event text := by
    unfold replace expand
    rw [replaceRounds_congr hfound]
  unfold replaced
  rw [hmisfit, htext]

/-- Where all properties are the same, so is every replacement. -/
theorem replaced_congr {s s' : Sources} (henv : s.environment = s'.environment)
    (h : ∀ name, s.properties.get? (.str name) = s'.properties.get? (.str name))
    (event : Option Event) (text : String) : s.replaced event text = s'.replaced event text :=
  replaced_congr_of_asked henv fun name _ => h name

end ConfigAssembly.Sources
