import ConfigAssembly.Proofs.Configuration.Setup
import ConfigAssembly.Proofs.Substitution.Asked
import ConfigAssembly.Proofs.Substitution.Template

/-!
# What reading properties leaves

The properties of a root are read one after the other: `declareProperties` is a fold of
`readProperty`, which passes over an element without a name (`declareProperties_fst`). One property
changes what is found at its own name and nowhere else (`get?_readProperty`), and so do several
(`get?_readProperties`); overrides are written over the file's properties at their names
(`get?_withOverrides`). `map_sources_make` says that nothing else goes into a configuration.

Reading the properties of a root with textual attributes fails only where the name of a variable
that they look up cannot be encoded (`Configuration.exists_make_iff`).
-/

namespace ConfigAssembly

/-! ### Maps with texts among their keys -/

/-- A text and another value are never the same number. -/
theorem Value.sameNumber_str (v : Value) (s : String) : v.sameNumber (.str s) = false := by
  unfold sameNumber
  split <;> simp_all [number?]

/-- A key that counts as a text is this text. -/
theorem Value.beq_str_iff {v : Value} {s : String} : (v == .str s) = true ↔ v = .str s := by
  constructor
  · intro h
    change sameKey v (.str s) = true at h
    cases v with
    | str t => exact congrArg Value.str (by simpa [sameKey] using h)
    | _ => simp [sameKey, sameNumber_str, isNull] at h
  · rintro rfl
    simp

namespace Assoc

variable {α β : Type}

/-- The first entry is looked at first. -/
theorem get?_cons [BEq α] (e : α × β) (es : Assoc α β) (key : α) :
    get? (e :: es) key = if e.1 == key then some e.2 else es.get? key := by
  unfold get?
  rw [List.find?_cons]
  by_cases h : e.1 == key <;> simp [h]

/-- What is found at a text after a value was written. -/
theorem get?_insert_str (m : Assoc Value β) (key : Value) (v : β) (name : String) :
    (m.insert key v).get? (.str name) =
      if key == .str name then some v else m.get? (.str name) := by
  induction m with
  | nil => exact get?_cons (key, v) [] (.str name)
  | cons e es ih =>
    unfold insert
    by_cases he : e.1 == key
    · -- The entry has the key already: texts that are one key are one text.
      have hsame : (e.1 == .str name) = (key == .str name) := by
        rw [Bool.eq_iff_iff, Value.beq_str_iff, Value.beq_str_iff]
        constructor
        · intro h
          rw [h] at he
          cases key with
          | str s =>
            have he : name = s := by simpa using he
            rw [he]
          | _ => cases he
        · rintro rfl
          exact Value.beq_str_iff.1 he
      rw [if_pos he, get?_cons, get?_cons, hsame]
      by_cases hk : key == .str name
      · rw [if_pos hk, if_pos hk]
      · rw [if_neg hk, if_neg hk, if_neg hk]
    · rw [if_neg he, get?_cons, get?_cons, ih]
      by_cases hn : e.1 == .str name
      · have hk : ¬ (key == .str name) = true := by
          intro hk
          rw [Value.beq_str_iff.1 hk] at he
          exact he hn
        rw [if_pos hn, if_neg hk, if_pos hn]
      · rw [if_neg hn, if_neg hn]

/-- What is found at a text after entries with different texts for keys were written. -/
theorem get?_insertAll_str (m : Assoc Value β) {o : Assoc String β} (ho : o.keys.Nodup)
    (name : String) :
    (m.insertAll (o.map fun (k, v) => (Value.str k, v))).get? (.str name) =
      (o.get? name).or (m.get? (.str name)) := by
  induction o generalizing m with
  | nil => rfl
  | cons e es ih =>
    obtain ⟨hnot, hes⟩ := List.nodup_cons.1 ho
    change get? (insertAll (m.insert (.str e.1) e.2) (es.map _)) _ = _
    rw [ih _ hes, get?_insert_str, get?_cons, Value.str_beq_str]
    by_cases h : e.1 == name
    · obtain rfl : e.1 = name := by simpa using h
      have hnone : get? es e.1 = none := by
        cases hv : get? es e.1 with
        | none => rfl
        | some v => exact absurd (mem_keys_of_get? hv) hnot
      simp [hnone]
    · simp [h]

/-- Keys at which nothing is written keep what they have. -/
theorem get?_insertAll_of_not_mem (m : Assoc Value β) {o : Assoc String β} {name : String}
    (h : name ∉ o.keys) :
    (m.insertAll (o.map fun (k, v) => (Value.str k, v))).get? (.str name) =
      m.get? (.str name) := by
  induction o generalizing m with
  | nil => rfl
  | cons e es ih =>
    obtain ⟨hne, hes⟩ : name ≠ e.1 ∧ name ∉ keys es := by simpa [keys] using h
    change get? (insertAll (m.insert (.str e.1) e.2) (es.map _)) _ = _
    rw [ih _ hes, get?_insert_str, Value.str_beq_str, if_neg (by simpa using Ne.symm hne)]

end Assoc

/-! ### Reading one property after the other -/

section Reading

variable {σ : Type} {t : Tree Value σ} {s s' : Sources} {name : String}

/-- A property has no name. -/
def nameless (t : Tree Value σ) : Bool := ((t.attribute? "name").getD .null).isNull

/-- The name of a property, if it is a text. -/
def propertyName? (t : Tree Value σ) : Option String := (t.attribute? "name").bind Value.str?

/-- The names of properties. -/
def propertyNames (ts : List (Tree Value σ)) : List String := ts.filterMap propertyName?

/-- The name of a property is an attribute. -/
theorem propertyName?_eq_some_iff :
    propertyName? t = some name ↔ t.attribute? "name" = some (.str name) := by
  unfold propertyName?
  cases t.attribute? "name" with
  | none => simp
  | some v => cases v <;> simp [Value.str?]

/-- A property with a name is not nameless. -/
theorem nameless_of_propertyName? (h : propertyName? t = some name) : nameless t = false := by
  rw [nameless, propertyName?_eq_some_iff.1 h]
  rfl

/-- Reads one property; one without a name is passed over. -/
def readProperty (s : Sources) (t : Tree Value σ) : Except Fault Sources :=
  if nameless t then .ok s
  else declareProperty s ((t.attribute? "name").getD .null) (propertyValue t)

/-- Properties are read one after the other. -/
theorem declareProperties_fst (title : Value) (ts : List (Tree Value σ)) (s : Sources) :
    (declareProperties title ts s).1 = ts.foldlM readProperty s := by
  induction ts generalizing s with
  | nil => rfl
  | cons t ts ih =>
    rw [declareProperties, List.foldlM_cons, readProperty, nameless]
    cases hname : (t.attribute? "name").getD .null with
    | null => exact ih s
    | _ =>
      rw [if_neg (by simp [Value.isNull])]
      dsimp only
      cases declareProperty s _ (propertyValue t) with
      | error f => rfl
      | ok s' => exact ih s'

/-- A property is declared if its name can be a key and its value can be read; the value is written
at the name. -/
theorem declareProperty_eq_ok_iff {name v : Value} :
    declareProperty s name v = .ok s' ↔
      name.changeable? = none ∧ ∃ v', declaredValue s v = .ok v' ∧
        s' = { s with properties := s.properties.insert name v' } := by
  unfold declareProperty
  cases declaredValue s v with
  | error f => simp [bind, Except.bind]
  | ok v' =>
    cases name.changeable? with
    | some part => simp [bind, Except.bind, throw, throwThe, MonadExceptOf.throw]
    | none => simp [bind, Except.bind, pure, Except.pure, eq_comm]

/-- Reading a property leaves the environment as it is. -/
theorem environment_readProperty (h : readProperty s t = .ok s') :
    s'.environment = s.environment := by
  unfold readProperty at h
  split at h
  · cases h
    rfl
  · exact environment_declareProperty h

/-- One property changes what is found at its own name only. -/
theorem get?_readProperty (h : readProperty s t = .ok s') (hne : propertyName? t ≠ some name) :
    s'.properties.get? (.str name) = s.properties.get? (.str name) := by
  unfold readProperty at h
  split at h
  · cases h
    rfl
  · rename_i hnamed
    obtain ⟨_, v, _, rfl⟩ := declareProperty_eq_ok_iff.1 h
    have hkey : ¬ ((t.attribute? "name").getD .null == .str name) = true := by
      intro hk
      have hk := Value.beq_str_iff.1 hk
      cases hv : t.attribute? "name" with
      | none => simp [hv] at hk
      | some v =>
        obtain rfl : v = .str name := by simpa [hv] using hk
        exact hne (propertyName?_eq_some_iff.2 hv)
    change (s.properties.insert _ _).get? _ = _
    rw [Assoc.get?_insert_str, if_neg hkey]

/-- Several properties change what is found at their names only. -/
theorem get?_readProperties {ts : List (Tree Value σ)} (h : ts.foldlM readProperty s = .ok s')
    (hne : name ∉ propertyNames ts) :
    s'.properties.get? (.str name) = s.properties.get? (.str name) := by
  induction ts generalizing s with
  | nil =>
    cases h
    rfl
  | cons t ts ih =>
    have hname : propertyName? t ≠ some name := fun ht => hne (by simp [propertyNames, ht])
    have hrest : name ∉ propertyNames ts := by
      intro hmem
      obtain ⟨u, hu, hname⟩ := List.mem_filterMap.1 hmem
      exact hne (List.mem_filterMap.2 ⟨u, List.mem_cons_of_mem t hu, hname⟩)
    rw [List.foldlM_cons] at h
    cases ht : readProperty s t with
    | error f => simp [ht, bind, Except.bind] at h
    | ok s₁ =>
      rw [ht] at h
      rw [ih h hrest, get?_readProperty ht hname]

/-- A property with texts for a name and a value has its tokens replaced and is written. -/
theorem readProperty_of_textual (s : Sources) (hname : propertyName? t = some name) {text : String}
    (hvalue : propertyValue t = .str text) :
    readProperty s t = (s.replaced none text).map fun v =>
      { s with properties := s.properties.insert (.str name) (.str v) } := by
  have hattr := propertyName?_eq_some_iff.1 hname
  rw [readProperty, nameless_of_propertyName? hname, if_neg (by decide), hattr, hvalue,
    Option.getD_some, declareProperty_str]

end Reading

/-- The records of the properties of a root that have no name. -/
def namelessRecords {σ : Type} (root : Tree Value σ) : Log :=
  List.replicate (((root.child? propertiesName).elim [] (·.children)).countP nameless)
    (.error ("Property without a name in " ++ root.title.text))

/-- Declaring properties logs an error for each property without a name, and nothing else. -/
theorem log_declareProperties {σ : Type} {title : Value} {ts : List (Tree Value σ)}
    {s s' : Sources} {log : Log} (h : declareProperties title ts s = (.ok s', log)) :
    log = List.replicate (ts.countP nameless)
      (.error ("Property without a name in " ++ title.text)) := by
  induction ts generalizing s log with
  | nil =>
    cases h
    rfl
  | cons t ts ih =>
    rw [declareProperties] at h
    split at h
    · rename_i hname
      have hnameless : nameless t = true := by
        unfold nameless
        rw [hname]
        rfl
      obtain ⟨hs, rfl⟩ := Prod.mk.inj h
      rw [List.countP_cons_of_pos hnameless, List.replicate_succ, ← ih (Prod.ext hs rfl)]
    · rename_i v hname
      -- A property with a name that is declared logs nothing itself.
      have hnamed : ¬ nameless t = true := by
        unfold nameless
        intro hnull
        cases hv : (t.attribute? "name").getD .null with
        | null => exact hname hv
        | _ =>
          rw [hv] at hnull
          cases hnull
      cases hd : declareProperty s ((t.attribute? "name").getD .null) (propertyValue t) with
      | error f => simp [hd] at h
      | ok s₁ =>
        rw [hd] at h
        rw [List.countP_cons_of_neg hnamed]
        exact ih h

/-! ### Variables that are looked up -/

/-- The sources that the properties of a root are read into: an environment and no properties. -/
def Sources.start (environment : Assoc String String) : Sources := ⟨[], .process environment⟩

/-- Sources that the properties of a root with textual attributes are read into: properties are
texts, and variables are those of the process. -/
structure Sources.Declared (s : Sources) : Prop where
  environment : ∃ entries, s.environment = .process entries
  properties : ∀ name v, s.properties.get? (.str name) = some v → ∃ text, v = .str text

namespace Sources.Declared

variable {s : Sources}

/-- Before any property is read. -/
theorem start (environment : Assoc String String) : (Sources.start environment).Declared :=
  ⟨⟨environment, rfl⟩, fun _ _ h => (by cases h)⟩

/-- What is looked up in the environment is a text. -/
theorem textual (h : s.Declared) : s.Textual := by
  obtain ⟨entries, he⟩ := h.environment
  unfold Textual
  rw [he]
  exact Environment.textual_process entries

/-- A property that is a text may be added. -/
theorem insert (h : s.Declared) (name text : String) :
    Declared { s with properties := s.properties.insert (.str name) (.str text) } where
  environment := h.environment
  properties other v hv := by
    rw [Assoc.get?_insert_str] at hv
    split at hv
    · exact ⟨text, (Option.some.inj hv).symm⟩
    · exact h.properties other v hv

/-- A key can be looked up unless it is about a variable whose name cannot be encoded. -/
theorem lookup_isOk_iff (h : s.Declared) (key : String) :
    (∃ o, Substitution.lookup s none key = .ok o) ↔
      ∀ name, Substitution.variableName? key = some name → isEncodable name = true := by
  cases hv : Substitution.variableName? key with
  | some name =>
    obtain ⟨entries, he⟩ := h.environment
    rw [Substitution.lookup_of_variableName? hv, he, Environment.get?]
    cases hname : isEncodable name <;> simp [hname]
  | none =>
    have hlookup : ∃ o, Substitution.lookup s none key = .ok o := by
      rcases Substitution.lookup_of_variableName?_eq_none hv s with ho | ho
      · exact ⟨none, ho⟩
      · rw [ho]
        cases hp : s.properties.get? (.str key) with
        | none => exact ⟨none, rfl⟩
        | some v =>
          obtain ⟨text, rfl⟩ := h.properties key v hp
          exact ⟨_, Value.written?_str text⟩
    simp [hlookup]

/-- The tokens of a text can be replaced just if the names of all variables that are looked up can
be encoded. -/
theorem replaced_isOk_iff (h : s.Declared) (text : String) :
    (∃ r, s.replaced none text = .ok r) ↔
      ∀ name ∈ s.variablesAsked none text, isEncodable name = true := by
  have hkeys : Substitution.firstFault (Substitution.lookup s none) (s.lookedUp none text) = none ↔
      ∀ name ∈ s.variablesAsked none text, isEncodable name = true := by
    unfold variablesAsked
    simp only [Substitution.firstFault_eq_none_iff, h.lookup_isOk_iff, List.mem_filterMap]
    exact ⟨fun hk name ⟨key, hkey, hname⟩ => hk key hkey name hname,
      fun hn key hkey name hname => hn name ⟨key, hkey, hname⟩⟩
  rw [← hkeys, h.textual.replaced_eq]
  cases Substitution.firstFault (Substitution.lookup s none) (s.lookedUp none text) <;> simp

end Sources.Declared

/-- The names of the variables that are looked up while a value is read. -/
def Sources.variablesIn (s : Sources) : Value → List String
  | .str text => s.variablesAsked none text
  | _ => []

section Variables

variable {σ : Type} {s : Sources} {t : Tree Value σ}

/-- The names of the variables that are looked up while properties are read, one after the other. -/
def variablesOf : List (Tree Value σ) → Sources → List String
  | [], _ => []
  | t :: ts, s =>
    (if nameless t then [] else s.variablesIn (propertyValue t)) ++
      match readProperty s t with
      | .ok s' => variablesOf ts s'
      | .error _ => []

/-- A property with textual attributes can be read just if the names of the variables that are
looked up can be encoded, and then it is a text. -/
theorem readProperty_isOk_iff (hs : s.Declared) (ht : t.Textual) :
    ((∃ s', readProperty s t = .ok s') ↔
        ∀ name ∈ if nameless t then [] else s.variablesIn (propertyValue t),
          isEncodable name = true) ∧
      ∀ s', readProperty s t = .ok s' → s'.Declared := by
  cases hn : nameless t with
  | true =>
    have hread : readProperty s t = .ok s := by rw [readProperty, if_pos hn]
    refine ⟨by simp [hread], fun s' h => ?_⟩
    rw [hread] at h
    exact Except.ok.inj h ▸ hs
  | false =>
    obtain ⟨name, hname⟩ : ∃ name, propertyName? t = some name := by
      unfold nameless at hn
      cases hv : t.attribute? "name" with
      | none => simp [hv, Value.isNull] at hn
      | some v =>
        obtain ⟨name, rfl⟩ := ht.attribute? hv
        exact ⟨name, propertyName?_eq_some_iff.2 hv⟩
    obtain ⟨text, htext⟩ := ht.propertyValue
    have hread := readProperty_of_textual s hname htext
    have hok := hs.replaced_isOk_iff text
    rw [hread, htext, if_neg (by decide), Sources.variablesIn, ← hok]
    cases s.replaced none text with
    | error f => exact ⟨by simp [Except.map], fun s' h => (by cases h)⟩
    | ok r =>
      refine ⟨by simp [Except.map], fun s' h => ?_⟩
      rw [← Except.ok.inj h]
      exact hs.insert name r

/-- So can several properties. -/
theorem readProperties_isOk_iff {ts : List (Tree Value σ)} (hts : ∀ t ∈ ts, t.Textual)
    (hs : s.Declared) :
    (∃ s', ts.foldlM readProperty s = .ok s') ↔
      ∀ name ∈ variablesOf ts s, isEncodable name = true := by
  induction ts generalizing s with
  | nil => simp [variablesOf, pure, Except.pure]
  | cons t ts ih =>
    obtain ⟨ht, hts⟩ := List.forall_mem_cons.1 hts
    obtain ⟨hok, hdeclared⟩ := readProperty_isOk_iff hs ht
    rw [List.foldlM_cons, variablesOf, List.forall_mem_append, ← hok]
    cases hr : readProperty s t with
    | error f => simp [bind, Except.bind]
    | ok s₁ =>
      have hrest := ih hts (hdeclared s₁ hr)
      exact ⟨fun h => ⟨⟨s₁, rfl⟩, hrest.1 h⟩, fun h => hrest.2 h.2⟩

end Variables

/-! ### Plain texts -/

/-- A text without dollars has no opening. -/
theorem Substitution.hasOpening_of_no_dollar {cs : List Char} (h : ∀ c ∈ cs, c ≠ '$') :
    hasOpening cs = false := by
  induction cs with
  | nil => rfl
  | cons c cs ih =>
    obtain ⟨hc, hcs⟩ := List.forall_mem_cons.1 h
    simp [hasOpening, opening, List.isPrefixOf, Ne.symm hc, ih hcs]

/-- The text of plain characters. -/
def Substitution.Plain.text (p : Plain) : String := String.ofList p.chars

/-- A plain text has no tokens, and nothing is looked up. -/
theorem Sources.replaced_plain (s : Sources) (event : Option Event) (p : Substitution.Plain) :
    s.replaced event p.text = .ok p.text := by
  have hopening : Substitution.hasOpening p.chars = false :=
    Substitution.hasOpening_of_no_dollar fun _ => p.ne_dollar_of_mem
  have hshield : Substitution.shieldEscapes p.chars = p.chars :=
    Substitution.shieldEscapes_of_not_hasOpening hopening
  have hmisfit : Substitution.misfitWithin (Substitution.lookup s event) Substitution.rounds
      (Substitution.shieldEscapes p.chars) = none := by
    rw [hshield]
    exact Substitution.misfitWithin_of_no_dollar (fun _ => p.ne_dollar_of_mem) _
  rw [Substitution.Plain.text, Substitution.replaced_ofList p.shield_not_mem hmisfit, hshield,
    Substitution.replaceRounds_of_not_hasOpening hopening,
    Substitution.unshield_of_not_mem p.shield_not_mem]

/-! ### Overrides and configurations -/

/-- The sources with overrides written over their properties. -/
def Sources.withOverrides (s : Sources) (overrides : Assoc String Value) : Sources :=
  { s with properties := s.properties.insertAll (overrides.map fun (k, v) => (.str k, v)) }

/-- What is found at a name after overrides were written. -/
theorem get?_withOverrides (s : Sources) {overrides : Assoc String Value}
    (h : overrides.keys.Nodup) (name : String) :
    (s.withOverrides overrides).properties.get? (.str name) =
      (overrides.get? name).or (s.properties.get? (.str name)) :=
  Assoc.get?_insertAll_str s.properties h name

/-- The elements that declare the properties of a root. -/
def Tree.declarations {σ : Type} (root : Tree Value σ) : List (Tree Value σ) :=
  (root.child? propertiesName).elim [] (·.children)

/-- The sources of a configuration are what its properties leave, with the overrides written over
them. -/
theorem Configuration.map_sources_make (root : Node) (registry : Registry)
    (visitors : VisitorRegistry) (environment : Assoc String String)
    (overrides : Assoc String Value) :
    (make root registry visitors environment overrides).1.map (·.sources) =
      (root.declarations.foldlM readProperty (.start environment)).map
        (·.withOverrides overrides) := by
  rw [← declareProperties_fst root.title]
  unfold make readProperties
  change Except.map _ (Except.map _ (Except.map _ (declareProperties root.title root.declarations
    (.start environment)).1)) = _
  cases (declareProperties root.title root.declarations (.start environment)).1 <;> rfl

/-- What the sources of a configuration that was made come from. -/
theorem Configuration.exists_of_make {root : Node} {registry : Registry}
    {visitors : VisitorRegistry} {environment : Assoc String String}
    {overrides : Assoc String Value} {c : Configuration} {log : Log}
    (h : make root registry visitors environment overrides = (.ok c, log)) :
    ∃ s, root.declarations.foldlM readProperty (.start environment) = .ok s ∧
      c.sources = s.withOverrides overrides := by
  have hmap := map_sources_make root registry visitors environment overrides
  rw [h] at hmap
  obtain ⟨s, hs, he⟩ := exists_of_map_eq_ok hmap.symm
  exact ⟨s, hs, he.symm⟩

/-- A configuration can be made if the properties of its root can be read. -/
theorem Configuration.exists_make {root : Node} {environment : Assoc String String} {s : Sources}
    (h : root.declarations.foldlM readProperty (.start environment) = .ok s) (registry : Registry)
    (visitors : VisitorRegistry) (overrides : Assoc String Value) :
    ∃ c log, make root registry visitors environment overrides = (.ok c, log) ∧
      c.sources = s.withOverrides overrides := by
  have hmap := map_sources_make root registry visitors environment overrides
  rw [h] at hmap
  obtain ⟨c, hc, he⟩ := exists_of_map_eq_ok hmap
  exact ⟨c, _, Prod.ext hc rfl, he⟩

/-- The names of the variables that are looked up while the properties of a root are read. -/
def Tree.variablesAsked {σ : Type} (root : Tree Value σ) (environment : Assoc String String) :
    List String :=
  variablesOf root.declarations (.start environment)

/-- The elements that declare the properties of a root with textual attributes have such ones. -/
theorem Tree.Textual.declarations {σ : Type} {root : Tree Value σ} (h : root.Textual) :
    ∀ t ∈ root.declarations, t.Textual := by
  intro t ht
  unfold Tree.declarations at ht
  cases hb : root.child? propertiesName with
  | none => simp [hb] at ht
  | some b =>
    rw [hb] at ht
    exact (h.children (List.mem_of_find?_eq_some hb)).children ht

/-- A configuration can be made of a root with textual attributes just if the names of all variables
that its properties look up can be encoded. -/
theorem Configuration.exists_make_iff {root : Node} (h : root.Textual) (registry : Registry)
    (visitors : VisitorRegistry) (environment : Assoc String String)
    (overrides : Assoc String Value) :
    (∃ c log, make root registry visitors environment overrides = (.ok c, log)) ↔
      ∀ name ∈ root.variablesAsked environment, isEncodable name = true := by
  rw [Tree.variablesAsked, ← readProperties_isOk_iff h.declarations (.start environment)]
  constructor
  · rintro ⟨c, log, hc⟩
    obtain ⟨s, hs, _⟩ := exists_of_make hc
    exact ⟨s, hs⟩
  · rintro ⟨s, hs⟩
    obtain ⟨c, log, hc, _⟩ := exists_make hs registry visitors overrides
    exact ⟨c, log, hc⟩

/-- The last declaration of a name that no override replaces is found under its name, with the value
that it is read with. -/
theorem Configuration.get?_of_make_declared {root : Node} {registry : Registry}
    {visitors : VisitorRegistry} {environment : Assoc String String}
    {overrides : Assoc String Value} {c : Configuration} {log : Log} {before after : List Node}
    {t : Node} {name : String}
    (h : make root registry visitors environment overrides = (.ok c, log))
    (hroot : root.declarations = before ++ t :: after) (hname : propertyName? t = some name)
    (hafter : name ∉ propertyNames after) (hover : name ∉ overrides.keys) :
    ∃ s v, before.foldlM readProperty (.start environment) = .ok s ∧
      declaredValue s (propertyValue t) = .ok v ∧
      c.sources.properties.get? (.str name) = some v := by
  obtain ⟨s, hs, hc⟩ := exists_of_make h
  rw [hroot, List.foldlM_append] at hs
  cases hs₁ : before.foldlM readProperty (Sources.start environment) with
  | error f => simp [hs₁, bind, Except.bind] at hs
  | ok s₁ =>
    rw [hs₁] at hs
    change (t :: after).foldlM readProperty s₁ = .ok s at hs
    rw [List.foldlM_cons] at hs
    cases hs₂ : readProperty s₁ t with
    | error f => simp [hs₂, bind, Except.bind] at hs
    | ok s₂ =>
      have hdeclared := hs₂
      rw [readProperty, nameless_of_propertyName? hname, if_neg (by decide),
        propertyName?_eq_some_iff.1 hname, Option.getD_some] at hdeclared
      obtain ⟨_, v, hv, rfl⟩ := declareProperty_eq_ok_iff.1 hdeclared
      rw [hs₂] at hs
      refine ⟨s₁, v, rfl, hv, ?_⟩
      rw [hc, Sources.withOverrides, Assoc.get?_insertAll_of_not_mem _ hover,
        get?_readProperties hs hafter, Assoc.get?_insert_str]
      simp

/-! ### Roots that declare properties and nothing else -/

/-- An element that declares a property by its attributes. -/
def Node.property (name value : String) : Node :=
  ⟨"Property", [("name", .str name), ("value", .str value)], none, .empty, []⟩

/-- A root that declares properties, given by their names and values. -/
def Node.declaring (properties : List (String × String)) : Node :=
  ⟨"Config", [], none, .empty, [⟨"Properties", [], none, .empty,
    properties.map fun (name, value) => property name value⟩]⟩

/-- The declarations of the example are texts. -/
theorem Node.textual_declaring (properties : List (String × String)) :
    (declaring properties).Textual := by
  have hleaf : ∀ name value, (property name value).walk = [property name value] := fun _ _ => rfl
  intro e he a ha
  simp only [declaring, Tree.walk, Tree.walkAll, Tree.walkAll_eq, List.append_nil, List.flatMap_map,
    hleaf, List.mem_append, List.mem_flatMap, List.mem_singleton] at he
  rcases he with (⟨p, _, rfl⟩ | rfl) | rfl
  · have ha : a = ("name", .str p.1) ∨ a = ("value", .str p.2) := by simpa [property] using ha
    rcases ha with rfl | rfl
    · exact ⟨_, rfl⟩
    · exact ⟨_, rfl⟩
  · cases ha
  · cases ha

end ConfigAssembly
