import ConfigAssembly.Proofs.Configuration.Properties

/-!
# Overrides and the properties of a file

Overrides are written over the properties of a file once these have been read. So a configuration
with overrides resolves tokens as one whose block declares them behind its own properties
(`readProperties_declaredLast`). To have them in place of the values that they override, or ahead of
the block where it does not declare them (`Overrides.declaredFirst`), comes to the same unless a
property that is not overridden asks, while it is read, for an overridden name that is declared by
then: such a property sees the value of the file (`not_forall_replaced_declaredFirst`).

The two ways of reading a block are compared property by property. `Alongside` says what both have
read so far: the same, except that overridden names have their overrides on one side, from the place
on where they are declared.
-/

namespace ConfigAssembly

open Substitution

/-- Overrides by plain texts. -/
abbrev Overrides := Assoc String Plain

namespace Overrides

variable (o : Overrides)

/-- Overrides as values. -/
def values : Assoc String Value := o.map fun (name, v) => (name, .str v.text)

/-- An element that declares a property with a plain value. -/
def element (name : String) (v : Plain) : Node :=
  ⟨"Property", [("name", .str name)], some v.text, .empty, []⟩

/-- The elements that declare overrides. -/
def elements : List Node := o.map fun (name, v) => element name v

/-- The element of a property, with the override of its name, if there is one, for its value. -/
def inPlace (t : Node) : Node :=
  match (propertyName? t).bind (Assoc.get? o) with
  | some v => { t with text := some v.text }
  | none => t

/-- The overrides of names that properties do not declare. -/
def undeclaredIn (ts : List Node) : Overrides :=
  o.filter fun e => e.1 ∉ propertyNames ts

/-- The properties with overrides in place of the values that they override, and the other
overrides ahead of them. -/
def declaredFirst (ts : List Node) : List Node := (o.undeclaredIn ts).elements ++ ts.map o.inPlace

/-- The properties with the overrides behind them. -/
def declaredLast (ts : List Node) : List Node := ts ++ o.elements

/-- An override is looked up as its text. -/
theorem get?_values (name : String) :
    o.values.get? name = (Assoc.get? o name).map fun v => .str v.text := by
  induction o with
  | nil => rfl
  | cons e es ih =>
    change Assoc.get? ((e.1, Value.str e.2.text) :: values es) name = _
    rw [Assoc.get?_cons, Assoc.get?_cons, ih]
    by_cases h : e.1 == name <;> simp [h]

/-- The values have the keys of the overrides. -/
theorem keys_values : o.values.keys = o.keys := by
  simp [values, Assoc.keys]

/-- The overrides of what is not declared. -/
theorem get?_undeclaredIn (ts : List Node) (name : String) :
    Assoc.get? (o.undeclaredIn ts) name =
      if name ∈ propertyNames ts then none else Assoc.get? o name := by
  induction o with
  | nil => simp [undeclaredIn]
  | cons e es ih =>
    unfold undeclaredIn at ih ⊢
    rw [List.filter_cons]
    by_cases hn : e.1 ∈ propertyNames ts
    · rw [if_neg (by simpa using hn), ih, Assoc.get?_cons]
      by_cases he : e.1 = name
      · subst he
        simp [hn]
      · simp [he]
    · rw [if_pos (by simpa using hn), Assoc.get?_cons, Assoc.get?_cons, ih]
      by_cases he : e.1 = name
      · subst he
        simp [hn]
      · simp [he]

/-- No key comes twice among them. -/
theorem nodup_undeclaredIn (ts : List Node) (h : o.keys.Nodup) : (o.undeclaredIn ts).keys.Nodup :=
  h.sublist (List.filter_sublist.map _)

/-- A declaration without an override stays as it is. -/
theorem inPlace_of_none {t : Node} (h : (propertyName? t).bind (Assoc.get? o) = none) :
    o.inPlace t = t := by
  rw [inPlace, h]

/-- A declaration with an override has its text. -/
theorem inPlace_of_some {t : Node} {name : String} {v : Plain} (hname : propertyName? t = some name)
    (hv : Assoc.get? o name = some v) : o.inPlace t = { t with text := some v.text } := by
  rw [inPlace, hname, Option.bind_some, hv]

/-- It declares the same property. -/
theorem propertyName?_inPlace (t : Node) : propertyName? (o.inPlace t) = propertyName? t := by
  unfold inPlace
  split <;> rfl

/-! ### Overrides behind the properties -/

/-- To read elements that declare overrides is to write the overrides. -/
theorem readProperties_elements (s : Sources) :
    o.elements.foldlM readProperty s = .ok (s.withOverrides o.values) := by
  induction o generalizing s with
  | nil => rfl
  | cons e es ih =>
    have hread : readProperty s (element e.1 e.2) =
        .ok { s with properties := s.properties.insert (.str e.1) (.str e.2.text) } := by
      have hvalue : propertyValue (element e.1 e.2) = .str e.2.text := rfl
      rw [readProperty_of_textual s rfl hvalue, Sources.replaced_plain]
      rfl
    change List.foldlM readProperty s (element e.1 e.2 :: elements es) = _
    rw [List.foldlM_cons, hread]
    exact ih _

/-- Overrides are read as if they were declared behind the properties. -/
theorem readProperties_declaredLast (ts : List Node) (environment : Assoc String String) :
    (o.declaredLast ts).foldlM readProperty (.start environment) =
      (ts.foldlM readProperty (.start environment)).map (·.withOverrides o.values) := by
  rw [declaredLast, List.foldlM_append]
  cases h : ts.foldlM readProperty (.start environment) with
  | error f => rfl
  | ok s => exact o.readProperties_elements s

/-! ### Overrides in the places of the properties -/

/-- What was read of a block, as it is and with overrides in the places of its properties: `before`
was read, `left` is to be read. -/
structure Alongside (before left : List Node) (s s' : Sources) : Prop where
  environment : s.environment = s'.environment
  /-- Names that are not overridden have the same values. -/
  other : ∀ name, Assoc.get? o name = none →
    s.properties.get? (.str name) = s'.properties.get? (.str name)
  /-- Overridden names that are to be declared have none yet. -/
  pending : ∀ name, (Assoc.get? o name).isSome → name ∉ propertyNames before →
    name ∈ propertyNames left →
    s.properties.get? (.str name) = none ∧ s'.properties.get? (.str name) = none
  /-- The other overridden names have their overrides. -/
  overridden : ∀ name v, Assoc.get? o name = some v →
    (name ∈ propertyNames before ∨ name ∉ propertyNames left) →
    s'.properties.get? (.str name) = some (.str v.text)

/-- A property that keeps its value asks for no overridden name while it is read, except for those
that are declared behind it only. -/
def AsksForNone (before : List Node) (t : Node) (after : List Node) (s : Sources) : Prop :=
  nameless t = false → (propertyName? t).bind (Assoc.get? o) = none →
    ∀ text, propertyValue t = .str text → ∀ name ∈ s.asked none text, (Assoc.get? o name).isSome →
      name ∉ propertyNames before ∧ name ∈ propertyNames after

/-- So do all properties of a block. -/
def ReadApart (environment : Assoc String String) (ts : List Node) : Prop :=
  ∀ before t after s, ts = before ++ t :: after →
    before.foldlM readProperty (.start environment) = .ok s → o.AsksForNone before t after s

/-- The names of declarations one after the other. -/
theorem propertyNames_append (ts us : List Node) :
    propertyNames (ts ++ us) = propertyNames ts ++ propertyNames us :=
  List.filterMap_append

/-- The names of a declaration and of those after it. -/
theorem mem_propertyNames_cons {name : String} {t : Node} {ts : List Node} :
    name ∈ propertyNames (t :: ts) ↔ propertyName? t = some name ∨ name ∈ propertyNames ts := by
  unfold propertyNames
  rw [List.filterMap_cons]
  cases propertyName? t <;> simp [eq_comm]

/-- The names of a declaration and of those before it. -/
theorem mem_propertyNames_concat {name : String} {t : Node} {ts : List Node} :
    name ∈ propertyNames (ts ++ [t]) ↔ name ∈ propertyNames ts ∨ propertyName? t = some name := by
  rw [propertyNames_append, List.mem_append, mem_propertyNames_cons]
  simp [propertyNames]

variable {o} {before left : List Node} {s s' s₁ s₁' : Sources} {t : Node}

/-- At first nothing was read, and the overrides that the block does not declare are there. -/
theorem Alongside.start (ho : o.keys.Nodup) (environment : Assoc String String) (ts : List Node) :
    o.Alongside [] ts (.start environment)
      ((Sources.start environment).withOverrides (o.undeclaredIn ts).values) := by
  have hget : ∀ name, ((Sources.start environment).withOverrides
      (o.undeclaredIn ts).values).properties.get? (.str name) =
        if name ∈ propertyNames ts then none
        else (Assoc.get? o name).map fun v => .str v.text := by
    intro name
    have hkeys : (o.undeclaredIn ts).values.keys.Nodup := by
      rw [keys_values]
      exact o.nodup_undeclaredIn ts ho
    rw [get?_withOverrides _ hkeys, get?_values, get?_undeclaredIn]
    by_cases h : name ∈ propertyNames ts
    · rw [if_pos h, if_pos h]
      rfl
    · rw [if_neg h, if_neg h]
      exact Option.or_none
  refine ⟨rfl, ?_, ?_, ?_⟩
  · intro name hnone
    rw [hget, hnone, Option.map_none, ite_self]
    rfl
  · intro name _ _ hmem
    rw [hget, if_pos hmem]
    exact ⟨rfl, rfl⟩
  · rintro name v hv (hmem | hnot)
    · exact absurd hmem List.not_mem_nil
    · rw [hget, if_neg hnot, hv]
      rfl

/-- One more property was read on both sides. -/
theorem Alongside.read (h : o.Alongside before (t :: left) s s') (hs : readProperty s t = .ok s₁)
    (hs' : readProperty s' (o.inPlace t) = .ok s₁')
    (hown : ∀ name, propertyName? t = some name →
      (Assoc.get? o name = none →
        s₁.properties.get? (.str name) = s₁'.properties.get? (.str name)) ∧
      ∀ v, Assoc.get? o name = some v →
        s₁'.properties.get? (.str name) = some (.str v.text)) :
    o.Alongside (before ++ [t]) left s₁ s₁' := by
  have hkept : ∀ name, propertyName? t ≠ some name →
      s₁'.properties.get? (.str name) = s'.properties.get? (.str name) := by
    intro name hne
    refine get?_readProperty hs' ?_
    rwa [propertyName?_inPlace]
  refine ⟨?_, ?_, ?_, ?_⟩
  · rw [environment_readProperty hs, environment_readProperty hs', h.environment]
  · intro name hnone
    by_cases ht : propertyName? t = some name
    · exact (hown name ht).1 hnone
    · rw [get?_readProperty hs ht, hkept name ht, h.other name hnone]
  · intro name hsome hnot hmem
    rw [mem_propertyNames_concat, not_or] at hnot
    rw [get?_readProperty hs hnot.2, hkept name hnot.2]
    exact h.pending name hsome hnot.1 (mem_propertyNames_cons.2 (.inr hmem))
  · intro name v hv hplace
    by_cases ht : propertyName? t = some name
    · exact (hown name ht).2 v hv
    · rw [hkept name ht]
      refine h.overridden name v hv ?_
      rw [mem_propertyNames_concat] at hplace
      rw [mem_propertyNames_cons]
      exact hplace.imp (·.resolve_right ht) fun hn hc => hn (hc.resolve_left ht)

/-- A value is read the same way if its tokens are replaced the same way. -/
theorem declaredValue_congr {v : Value}
    (h : ∀ text, v = .str text → s.replaced none text = s'.replaced none text) :
    declaredValue s v = declaredValue s' v := by
  cases v with
  | str text => exact congrArg (Except.map Value.str) (h text rfl)
  | _ => rfl

/-- A property that keeps its value is read the same way on both sides if it asks for no overridden
name that has been declared. -/
theorem Alongside.keep (h : o.Alongside before (t :: left) s s')
    (hkeep : (propertyName? t).bind (Assoc.get? o) = none) (hs : readProperty s t = .ok s₁)
    (ht : o.AsksForNone before t left s) :
    ∃ s₁', readProperty s' (o.inPlace t) = .ok s₁' ∧ o.Alongside (before ++ [t]) left s₁ s₁' := by
  cases hnameless : nameless t with
  | true =>
    have hs₁ : s = s₁ := by simpa [readProperty, hnameless] using hs
    have hread : readProperty s' (o.inPlace t) = .ok s' := by
      rw [inPlace_of_none o hkeep, readProperty, if_pos hnameless]
    refine ⟨s', hread, h.read hs hread fun name hname => ?_⟩
    rw [nameless_of_propertyName? hname] at hnameless
    cases hnameless
  | false =>
    rw [readProperty, if_neg (by simp [hnameless])] at hs
    obtain ⟨hkey, v, hv, rfl⟩ := declareProperty_eq_ok_iff.1 hs
    have hreplaced : ∀ text, propertyValue t = .str text →
        s.replaced none text = s'.replaced none text := by
      intro text htext
      have hasked : ∀ name ∈ s.asked none text,
          s.properties.get? (.str name) = s'.properties.get? (.str name) := by
        intro name hname
        cases hov : Assoc.get? o name with
        | none => exact h.other name hov
        | some w =>
          have hsome : (Assoc.get? o name).isSome := by rw [hov]; rfl
          obtain ⟨hbefore, hafter⟩ := ht hnameless hkeep text htext name hname hsome
          obtain ⟨hnone, hnone'⟩ :=
            h.pending name hsome hbefore (mem_propertyNames_cons.2 (.inr hafter))
          rw [hnone, hnone']
      exact Sources.replaced_congr_of_asked h.environment hasked
    have hread : readProperty s' (o.inPlace t) = .ok { s' with
        properties := s'.properties.insert ((t.attribute? "name").getD .null) v } := by
      rw [inPlace_of_none o hkeep, readProperty, if_neg (by simp [hnameless])]
      exact declareProperty_eq_ok_iff.2
        ⟨hkey, v, (declaredValue_congr hreplaced).symm.trans hv, rfl⟩
    refine ⟨_, hread, h.read (by rwa [readProperty, if_neg (by simp [hnameless])]) hread ?_⟩
    intro name hname
    have hattr := propertyName?_eq_some_iff.1 hname
    constructor
    · intro _
      change (s.properties.insert _ v).get? _ = (s'.properties.insert _ v).get? _
      rw [hattr, Option.getD_some, Assoc.get?_insert_str, Assoc.get?_insert_str]
      simp
    · intro w hw
      rw [hname, Option.bind_some, hw] at hkeep
      cases hkeep

/-- A property that is overridden has its override on one side from then on. -/
theorem Alongside.override (h : o.Alongside before (t :: left) s s') {name : String} {v : Plain}
    (hname : propertyName? t = some name) (hv : Assoc.get? o name = some v)
    (hs : readProperty s t = .ok s₁) :
    ∃ s₁', readProperty s' (o.inPlace t) = .ok s₁' ∧ o.Alongside (before ++ [t]) left s₁ s₁' := by
  have hvalue : propertyValue (o.inPlace t) = .str v.text := by
    rw [inPlace_of_some o hname hv]
    rfl
  have hread := readProperty_of_textual s' ((o.propertyName?_inPlace t).trans hname) hvalue
  rw [Sources.replaced_plain] at hread
  refine ⟨_, hread, h.read hs hread fun name' hname' => ?_⟩
  obtain rfl : name = name' := Option.some.inj (hname.symm.trans hname')
  constructor
  · intro hnone
    rw [hv] at hnone
    cases hnone
  · intro w hw
    obtain rfl : v = w := Option.some.inj (hv.symm.trans hw)
    change (s'.properties.insert _ _).get? _ = _
    rw [Assoc.get?_insert_str]
    simp

/-- All properties are read on both sides. -/
theorem Alongside.readAll {environment : Assoc String String} {s₂ : Sources}
    (h : o.Alongside before left s s')
    (hapart : o.ReadApart environment (before ++ left))
    (hbefore : before.foldlM readProperty (.start environment) = .ok s)
    (hs : left.foldlM readProperty s = .ok s₂) :
    ∃ s₂', (left.map o.inPlace).foldlM readProperty s' = .ok s₂' ∧
      o.Alongside (before ++ left) [] s₂ s₂' := by
  induction left generalizing before s s' with
  | nil =>
    cases hs
    exact ⟨s', rfl, by rwa [List.append_nil]⟩
  | cons t left ih =>
    rw [List.foldlM_cons] at hs
    cases ht : readProperty s t with
    | error f => simp [ht, bind, Except.bind] at hs
    | ok s₁ =>
      rw [ht] at hs
      have hnext : ∃ s₁', readProperty s' (o.inPlace t) = .ok s₁' ∧
          o.Alongside (before ++ [t]) left s₁ s₁' := by
        cases hov : (propertyName? t).bind (Assoc.get? o) with
        | none => exact h.keep hov ht (hapart before t left s rfl hbefore)
        | some v =>
          obtain ⟨name, hname, hv⟩ := Option.bind_eq_some_iff.1 hov
          exact h.override hname hv ht
      obtain ⟨s₁', ht', hnext⟩ := hnext
      have hsplit : before ++ t :: left = before ++ [t] ++ left := by simp
      have hread : (before ++ [t]).foldlM readProperty (.start environment) = .ok s₁ := by
        rw [List.foldlM_append, hbefore]
        change List.foldlM readProperty s [t] = _
        rw [List.foldlM_cons, ht]
        rfl
      rw [hsplit] at hapart ⊢
      obtain ⟨s₂', hs₂', hend⟩ := ih hnext hapart hread hs
      refine ⟨s₂', ?_, hend⟩
      rw [List.map_cons, List.foldlM_cons, ht']
      exact hs₂'

/-- When all were read, every name is found as in the sources with the overrides written over
them. -/
theorem Alongside.get?_eq {ts : List Node} (h : o.Alongside ts [] s s') (ho : o.keys.Nodup)
    (name : String) :
    (s.withOverrides o.values).properties.get? (.str name) = s'.properties.get? (.str name) := by
  have hkeys : o.values.keys.Nodup := by rwa [keys_values]
  rw [get?_withOverrides s hkeys, get?_values]
  cases hv : Assoc.get? o name with
  | none => exact h.other name hv
  | some v => exact (h.overridden name v hv (.inr List.not_mem_nil)).symm

/-- Overrides that no property asks for while it is read may stand in the places of the
properties. -/
theorem exists_readProperties_declaredFirst (ho : o.keys.Nodup) {environment : Assoc String String}
    {ts : List Node} (hapart : o.ReadApart environment ts)
    (hs : ts.foldlM readProperty (.start environment) = .ok s) :
    ∃ s', (o.declaredFirst ts).foldlM readProperty (.start environment) = .ok s' ∧
      s.environment = s'.environment ∧ ∀ name,
        (s.withOverrides o.values).properties.get? (.str name) =
          s'.properties.get? (.str name) := by
  obtain ⟨s', hs', hend⟩ := (Alongside.start ho environment ts).readAll hapart rfl hs
  refine ⟨s', ?_, hend.environment, hend.get?_eq ho⟩
  have hahead : (o.undeclaredIn ts).elements.foldlM readProperty (.start environment) =
      .ok ((Sources.start environment).withOverrides (o.undeclaredIn ts).values) :=
    readProperties_elements _ _
  rw [declaredFirst, List.foldlM_append, hahead]
  exact hs'

end Overrides

/-! ### Configurations -/

namespace Tree

variable {α σ : Type}

/-- Several elements with other ones in the first properties block among them. -/
def redeclareIn (f : List (Tree α σ) → List (Tree α σ)) : List (Tree α σ) → List (Tree α σ)
  | [] => []
  | t :: ts =>
    if isPropertiesBlock t then { t with children := f t.children } :: ts
    else t :: redeclareIn f ts

/-- A root whose properties block holds other elements. -/
def redeclare (root : Tree α σ) (f : List (Tree α σ) → List (Tree α σ)) : Tree α σ :=
  { root with children := redeclareIn f root.children }

/-- The block is found in its place, with its children changed. -/
theorem find?_redeclareIn (f : List (Tree α σ) → List (Tree α σ)) (ts : List (Tree α σ)) :
    (redeclareIn f ts).find? isPropertiesBlock =
      (ts.find? isPropertiesBlock).map fun t => { t with children := f t.children } := by
  induction ts with
  | nil => rfl
  | cons t ts ih =>
    unfold redeclareIn
    by_cases h : isPropertiesBlock t
    · have hblock : isPropertiesBlock { t with children := f t.children } = true := h
      rw [if_pos h, List.find?_cons_of_pos h, List.find?_cons_of_pos hblock]
      rfl
    · rw [if_neg h, List.find?_cons_of_neg h, List.find?_cons_of_neg h, ih]

/-- The properties are those that the block holds then. -/
theorem declarations_redeclare {root : Tree Value σ} (h : (root.child? propertiesName).isSome)
    (f : List (Tree Value σ) → List (Tree Value σ)) :
    (root.redeclare f).declarations = f root.declarations := by
  have hchild : ∀ t : Tree Value σ, t.child? propertiesName = t.children.find? isPropertiesBlock :=
    fun _ => rfl
  obtain ⟨block, hblock⟩ := Option.isSome_iff_exists.1 h
  unfold declarations
  rw [hblock, hchild]
  rw [hchild] at hblock
  rw [redeclare, find?_redeclareIn, hblock]
  rfl

end Tree

namespace Configuration

/-- A configuration with overrides, which can be made of a root with textual attributes just if the
names of all variables that its properties look up can be encoded, replaces tokens as one without
them whose block declares them behind its own properties. If no property that is not overridden
asks, while it is read, for an overridden name that is declared before it or nowhere in the block,
then so does a configuration whose block declares the overrides in place of the values that they
override, and ahead of the properties where they override none. -/
theorem replaced_overrides {root : Node} (hblock : (root.child? propertiesName).isSome)
    (registry : Registry) (visitors : VisitorRegistry) (environment : Assoc String String)
    {o : Overrides} (ho : o.keys.Nodup) :
    (root.Textual →
      ((∃ c log, make root registry visitors environment o.values = (.ok c, log)) ↔
        ∀ name ∈ root.variablesAsked environment, isEncodable name = true)) ∧
    ∀ c log, make root registry visitors environment o.values = (.ok c, log) →
      (∃ c' log', make (root.redeclare o.declaredLast) registry visitors environment [] =
          (.ok c', log') ∧
        ∀ event s, c.sources.replaced event s = c'.sources.replaced event s) ∧
      (o.ReadApart environment root.declarations →
        ∃ c' log', make (root.redeclare o.declaredFirst) registry visitors environment [] =
            (.ok c', log') ∧
          ∀ event s, c.sources.replaced event s = c'.sources.replaced event s) := by
  refine ⟨fun htext => exists_make_iff htext registry visitors environment o.values,
    fun c log hc => ⟨?_, fun hapart => ?_⟩⟩
  · obtain ⟨s, hs, hsources⟩ := exists_of_make hc
    have hlast : (root.redeclare o.declaredLast).declarations.foldlM readProperty
        (.start environment) = .ok (s.withOverrides o.values) := by
      rw [Tree.declarations_redeclare hblock, o.readProperties_declaredLast, hs]
      rfl
    obtain ⟨c', log', hc', hsources'⟩ := exists_make hlast registry visitors []
    refine ⟨c', log', hc', fun event s => ?_⟩
    rw [hsources', hsources]
    rfl
  · obtain ⟨s, hs, hsources⟩ := exists_of_make hc
    obtain ⟨s', hs', henv, hget⟩ := Overrides.exists_readProperties_declaredFirst ho hapart hs
    have hfirst : (root.redeclare o.declaredFirst).declarations.foldlM readProperty
        (.start environment) = .ok s' := by
      rw [Tree.declarations_redeclare hblock]
      exact hs'
    obtain ⟨c', log', hc', hsources'⟩ := exists_make hfirst registry visitors []
    refine ⟨c', log', hc', fun event text => ?_⟩
    rw [hsources', hsources]
    exact @Sources.replaced_congr (s.withOverrides o.values) s' henv hget event text

/-- A root with a property that refers to one that is declared behind it. -/
def lateRoot : Node := Node.declaring [("dir", "$\x7bbase:-.\x7d"), ("base", "v1")]

/-- An override of the property that is declared last. -/
def lateOverride : Overrides := [("base", ⟨['v', '2'], by simp [inBody, shield]⟩)]

/-- An override is seen where its name is used, and the properties that are read before the file
declares the name do not see it in any case. -/
theorem replaced_overrides_late :
    ∃ c c' c'' log log' log'',
      make lateRoot .empty .standard [] lateOverride.values = (.ok c, log) ∧
      make (lateRoot.redeclare lateOverride.declaredLast) .empty .standard [] [] =
        (.ok c', log') ∧
      make (lateRoot.redeclare lateOverride.declaredFirst) .empty .standard [] [] =
        (.ok c'', log'') ∧
      c.sources.replaced none "$\x7bdir\x7d/$\x7bbase\x7d" = .ok "./v2" ∧
      c'.sources.replaced none "$\x7bdir\x7d/$\x7bbase\x7d" = .ok "./v2" ∧
      c''.sources.replaced none "$\x7bdir\x7d/$\x7bbase\x7d" = .ok "./v2" := by
  have hapart : lateOverride.ReadApart [] lateRoot.declarations := by
    intro before t after s hsplit hs _ hkeep text htext name hname _
    match before, hsplit with
    | [], hsplit =>
      obtain ⟨rfl, rfl⟩ := List.cons.inj hsplit
      cases hs
      cases htext
      have hasked : (Sources.start []).asked none "$\x7bbase:-.\x7d" = ["base"] := by cbv
      rw [hasked, List.mem_singleton] at hname
      rw [hname]
      decide
    | [_], hsplit =>
      -- the other property is the overridden one
      obtain ⟨_, hsplit⟩ := List.cons.inj hsplit
      obtain ⟨rfl, _⟩ := List.cons.inj hsplit
      cases hkeep
    | _ :: _ :: _, hsplit =>
      obtain ⟨_, hsplit⟩ := List.cons.inj hsplit
      obtain ⟨_, hsplit⟩ := List.cons.inj hsplit
      simp at hsplit
  have hblock : (lateRoot.child? propertiesName).isSome := by decide
  have hkeys : lateOverride.keys.Nodup := by decide
  obtain ⟨hmade, hover⟩ := replaced_overrides hblock .empty .standard [] hkeys
  have hencodable : ∀ name ∈ lateRoot.variablesAsked [], isEncodable name = true := by
    have hnone : lateRoot.variablesAsked [] = [] := by cbv
    rw [hnone]
    exact fun _ h => (by cases h)
  obtain ⟨c, log, hc⟩ := (hmade (Node.textual_declaring _)).2 hencodable
  obtain ⟨⟨c', log', hc', hlast⟩, hfirst⟩ := hover c log hc
  obtain ⟨c'', log'', hc'', hfirst⟩ := hfirst hapart
  have hvalue : c.sources.replaced none "$\x7bdir\x7d/$\x7bbase\x7d" = .ok "./v2" := by
    have hread : lateRoot.declarations.foldlM readProperty (.start []) =
        .ok ⟨[(.str "dir", .str "."), (.str "base", .str "v1")], .process []⟩ := by cbv
    obtain ⟨s, hs, hsources⟩ := exists_of_make hc
    obtain rfl := Except.ok.inj (hread.symm.trans hs)
    rw [hsources]
    cbv
  refine ⟨c, c', c'', log, log', log'', hc, hc', hc'', hvalue, ?_, ?_⟩
  · rw [← hlast, hvalue]
  · rw [← hfirst, hvalue]

/-- A property that is read behind an overridden one sees the value of the file. -/
theorem not_forall_replaced_declaredFirst :
    ¬ ∀ (root : Node) (registry : Registry) (visitors : VisitorRegistry)
      (environment : Assoc String String) (o : Overrides) (c c' : Configuration) (log log' : Log),
      (root.child? propertiesName).isSome → o.keys.Nodup →
      make root registry visitors environment o.values = (.ok c, log) →
      make (root.redeclare o.declaredFirst) registry visitors environment [] = (.ok c', log') →
      ∀ event s, c.sources.replaced event s = c'.sources.replaced event s := by
  intro h
  let o : Overrides := [("base", ⟨['v', '2'], by simp [inBody, shield]⟩)]
  let root := Node.declaring [("base", "v1"), ("dir", "$\x7bbase\x7d")]
  have hread : root.declarations.foldlM readProperty (.start []) =
      .ok ⟨[(.str "base", .str "v1"), (.str "dir", .str "v1")], .process []⟩ := by cbv
  have hread' : (root.redeclare o.declaredFirst).declarations.foldlM readProperty (.start []) =
      .ok ⟨[(.str "base", .str "v2"), (.str "dir", .str "v2")], .process []⟩ := by cbv
  obtain ⟨c, log, hc, hs⟩ := exists_make hread .empty .standard o.values
  obtain ⟨c', log', hc', hs'⟩ := exists_make hread' .empty .standard []
  have hsame := h root .empty .standard [] o c c' log log' (by decide) (by decide) hc hc' none
    "$\x7bdir\x7d"
  have hfile : c.sources.replaced none "$\x7bdir\x7d" = .ok "v1" := by
    rw [hs]
    cbv
  have hoverridden : c'.sources.replaced none "$\x7bdir\x7d" = .ok "v2" := by
    rw [hs']
    cbv
  rw [hfile, hoverridden] at hsame
  exact absurd (Except.ok.inj hsame) (by decide)

end Configuration
end ConfigAssembly
