import ConfigAssembly.Proofs.Binding.Agreement
import ConfigAssembly.Proofs.Taken.Spelling

/-!
# Foreign metadata

What accompanies a declared type may be meant for somebody else: a marker of a kind that no visitor
is for, or something that means nothing to the library (`Metadata.Foreign`). Where such is put into
the annotation of a declaration (`Hint.ExtendsTo`), the declaration may take another way: a field
that was dropped becomes an input, and a bare parameter becomes one with markers and a type. But the
markers that a visitor is for, the aliases and the type are what they were, so the same is found and
the same taken (`Hint.ExtendsTo.found_eq`). Hence fields are set as before
(`Binder.inject_foreign`), and the arguments of a factory are what they were, each at its place
(`Binder.arguments_foreign`).

A union with an alternative that carries metadata has an annotation, which is that of this
alternative. Metadata around the union is not put into that annotation: it makes another one in its
place, and what is inside is not read any more (`Input.ofHint?_annotated_union`).
-/

namespace ConfigAssembly

/-! ### Declarations with foreign metadata put in -/

/-- Metadata that is meant for somebody else. Aliases never are: they tell where the markers beside
them are looked for. -/
inductive Metadata.Foreign (visitors : VisitorRegistry) : Metadata → Prop
  | unhandled {m : Marker} (h : visitors.find? m.kind = none) : Foreign visitors (.marker m)
  | foreign (text : String) : Foreign visitors (.foreign text)

/-- Foreign metadata is put into a list, at any places. -/
inductive Metadata.ExtendTo (visitors : VisitorRegistry) : List Metadata → List Metadata → Prop
  | nil : ExtendTo visitors [] []
  | keep (d : Metadata) {ds ds' : List Metadata} (h : ExtendTo visitors ds ds') :
    ExtendTo visitors (d :: ds) (d :: ds')
  | insert {d : Metadata} (hd : d.Foreign visitors) {ds ds' : List Metadata}
    (h : ExtendTo visitors ds ds') : ExtendTo visitors ds (d :: ds')

namespace Metadata.ExtendTo

variable {visitors : VisitorRegistry}

/-- Nothing may be put in. -/
theorem refl : (ds : List Metadata) → ExtendTo visitors ds ds
  | [] => .nil
  | d :: ds => .keep d (refl ds)

/-- Foreign metadata may be put into both parts of a list. -/
theorem append {ds ds' es es' : List Metadata} (h : ExtendTo visitors ds ds')
    (h' : ExtendTo visitors es es') : ExtendTo visitors (ds ++ es) (ds' ++ es') := by
  induction h with
  | nil => exact h'
  | keep d _ ih => exact .keep d ih
  | insert hd _ ih => exact .insert hd ih

end Metadata.ExtendTo

/-- Foreign metadata is put to an annotation. -/
structure Annotation.ExtendsTo (visitors : VisitorRegistry) (a a' : Annotation) : Prop where
  type : a.type = a'.type
  metadata : Metadata.ExtendTo visitors a.metadata a'.metadata

/-- Foreign metadata is put to a declaration: at any places into the annotation that stands around
it or is the first among its alternatives, or around the declaration, unless the annotation that is
read off it is that of an alternative. It may be wrapped into an optional type, and one that is may
be unwrapped. -/
inductive Hint.ExtendsTo (visitors : VisitorRegistry) : Hint → Hint → Prop
  | around (inner : Hint) {ds ds' : List Metadata} (h : Metadata.ExtendTo visitors ds ds') :
    ExtendsTo visitors (.annotated inner ds) (.annotated inner ds')
  | inside {before : List Hint} (hbefore : ∀ h ∈ before, h.ownAnnotation? = none) (inner : Hint)
    (after : List Hint) {ds ds' : List Metadata} (h : Metadata.ExtendTo visitors ds ds') :
    ExtendsTo visitors (.union (before ++ .annotated inner ds :: after))
      (.union (before ++ .annotated inner ds' :: after))
  | outside {h : Hint} (hown : h.annotation? = h.ownAnnotation?) {ds : List Metadata}
    (hds : Metadata.ExtendTo visitors [] ds) : ExtendsTo visitors h (.annotated h ds)
  | wrap (h : Hint) : ExtendsTo visitors h h.optional
  | unwrap (h : Hint) : ExtendsTo visitors h.optional h
  | refl (h : Hint) : ExtendsTo visitors h h
  | trans {h h' h'' : Hint} (hh : ExtendsTo visitors h h') (hh' : ExtendsTo visitors h' h'') :
    ExtendsTo visitors h h''

/-- Foreign metadata is put to a parameter. One without a declared type may get one that carries
nothing else. -/
inductive Parameter.ExtendsTo (visitors : VisitorRegistry) : Parameter → Parameter → Prop
  | declared (name : String) {h h' : Hint} (hh : h.ExtendsTo visitors h') :
    ExtendsTo visitors ⟨name, some h⟩ ⟨name, some h'⟩
  | undeclared (name : String) : ExtendsTo visitors ⟨name, none⟩ ⟨name, none⟩
  | newlyDeclared (name : String) (t : TypeExpr) {h' : Hint}
    (hh : Hint.ExtendsTo visitors (.type t) h') : ExtendsTo visitors ⟨name, none⟩ ⟨name, some h'⟩

/-- A parameter keeps its name. -/
theorem Parameter.ExtendsTo.name {visitors : VisitorRegistry} {p p' : Parameter}
    (h : p.ExtendsTo visitors p') : p.name = p'.name := by
  cases h <;> rfl

namespace Hint

/-- An optional type has the annotation of what is optional. -/
@[simp] theorem annotation?_optional (h : Hint) : h.optional.annotation? = h.annotation? := by
  cases h with
  | type t => rfl
  | annotated inner ds => rfl
  | union hs =>
    rw [optional, annotation?, annotation?, List.findSome?_append]
    exact Option.or_none

/-- Of alternatives the first that carries metadata has the annotation. -/
theorem annotation?_union {before : List Hint} (hbefore : ∀ h ∈ before, h.ownAnnotation? = none)
    (inner : Hint) (ds : List Metadata) (after : List Hint) :
    (union (before ++ annotated inner ds :: after)).annotation? =
      (annotated inner ds).annotation? := by
  rw [annotation?, List.findSome?_append, List.findSome?_eq_none_iff.2 hbefore, Option.none_or]
  rfl

/-- Metadata around a declaration is put to the annotation around it, or else to its type. -/
theorem annotation?_annotated (inner : Hint) (ds : List Metadata) :
    (annotated inner ds).annotation? =
      some ⟨(inner.ownAnnotation?.getD ⟨inner.innerType, []⟩).type,
        (inner.ownAnnotation?.getD ⟨inner.innerType, []⟩).metadata ++ ds⟩ := by
  rw [annotation?, ownAnnotation?]
  exact fun _ h => Hint.noConfusion h

end Hint

/-- Metadata without a marker around a union leaves no input, whatever the alternatives carry. -/
theorem Input.ofHint?_annotated_union (name : String) (hs : List Hint) {ds : List Metadata}
    (hds : ∀ m, .marker m ∉ ds) (position : Option Nat) :
    ofHint? name (.annotated (.union hs) ds) position = none := by
  have hmarkers : Annotation.markers ⟨(Hint.union hs).innerType, ds⟩ name = [] := by
    refine List.filterMap_eq_nil_iff.2 fun d hd => ?_
    cases d with
    | marker m => exact absurd hd (hds m)
    | _ => rfl
  rw [ofHint?, Hint.annotation?_annotated, Option.bind_some]
  exact if_pos (List.isEmpty_iff.2 hmarkers)

/-! ### What is found for one declaration -/

/-- The input that an annotation makes, also when it has no markers. -/
def Annotation.input (a : Annotation) (name : String) : Input :=
  ⟨name, a.markers name, a.aliases, a.type, none⟩

/-- The markers of an annotation are found one by one. -/
theorem Annotation.markers_cons (t : TypeExpr) (m : Marker) (ds : List Metadata) (name : String) :
    Annotation.markers ⟨t, .marker m :: ds⟩ name =
      m.named name :: Annotation.markers ⟨t, ds⟩ name := rfl

/-- Giving a marker a name does not change its kind. -/
theorem Marker.kind_named (m : Marker) (name : String) : (m.named name).kind = m.kind := rfl

/-- What passes over foreign metadata comes to the same with it and without it. -/
theorem Metadata.ExtendTo.foldl_eq {visitors : VisitorRegistry} {ds ds' : List Metadata} {α : Type}
    (h : ExtendTo visitors ds ds') {f : α → Metadata → α}
    (hf : ∀ d, d.Foreign visitors → ∀ a, f a d = a) (a : α) : ds.foldl f a = ds'.foldl f a := by
  induction h generalizing a with
  | nil => rfl
  | keep d _ ih => exact ih (f a d)
  | insert hd _ ih => rw [List.foldl_cons, hf _ hd, ih]

namespace Annotation.ExtendsTo

/-- Aliases are not foreign, so the last ones are those that they were. -/
theorem aliases_eq {visitors : VisitorRegistry} {a a' : Annotation}
    (h : a.ExtendsTo visitors a') : a.aliases = a'.aliases := by
  refine h.metadata.foldl_eq ?_ []
  rintro _ (_ | _) names <;> rfl

variable {b : Binder} {a a' : Annotation}

/-- Markers that nobody is for are passed over, wherever they stand. -/
theorem resolveFrom_markers (h : a.ExtendsTo b.visitors a') (name : String) (i : Input)
    (last : Option Value) (c : Taken) :
    b.resolveFrom i (a.markers name) last c = b.resolveFrom i (a'.markers name) last c := by
  obtain ⟨t, ds⟩ := a
  obtain ⟨t', ds'⟩ := a'
  have hd : Metadata.ExtendTo b.visitors ds ds' := h.metadata
  clear h
  induction hd generalizing last c with
  | nil => rfl
  | keep d _ ih =>
    cases d with
    | marker m =>
      rw [markers_cons, markers_cons]
      cases hd : b.visitors.find? (m.named name).kind with
      | none =>
        rw [Binder.resolveFrom_cons_of_none hd, Binder.resolveFrom_cons_of_none hd]
        exact ih last c
      | some d =>
        rw [Binder.resolveFrom_cons_of_some hd, Binder.resolveFrom_cons_of_some hd]
        congr 1
        funext x c
        exact ih (some x) c
    | aliases names => exact ih last c
    | foreign text => exact ih last c
  | insert hd _ ih =>
    cases hd with
    | @unhandled m hm =>
      have hnamed : b.visitors.find? (m.named name).kind = none := by
        rw [Marker.kind_named]
        exact hm
      rw [markers_cons, Binder.resolveFrom_cons_of_none hnamed]
      exact ih last c
    | foreign text => exact ih last c

/-- Foreign metadata changes nothing about what is found for an annotation and what is taken. -/
theorem resolve_eq (h : a.ExtendsTo b.visitors a') (name : String) (c : Taken) :
    b.resolve (a.input name) c = b.resolve (a'.input name) c := by
  calc b.resolve (a.input name) c
    _ = b.resolveFrom (a.input name) (a'.markers name) none c :=
      h.resolveFrom_markers name _ none c
    _ = b.resolve (a'.input name) c :=
      Binder.resolveFrom_congr h.aliases_eq h.type _ none c

end Annotation.ExtendsTo

section Declaration

variable {b : Binder}

/-- What is found for an annotation, if there is one, and nothing otherwise. -/
def Binder.found (b : Binder) (name : String) (a : Option Annotation) (c : Taken) :
    Outcome (Option Value) :=
  a.elim ⟨.ok none, c, []⟩ fun a => b.resolve (a.input name) c

/-- A parameter without markers is a bare one. Nothing is found for it and nothing is taken, as for
the input that its annotation would make. -/
theorem Binder.resolve_ofParameter (p : Parameter) (k : Nat) (c : Taken) :
    b.resolve (Input.ofParameter p k) c = b.found p.name p.annotation? c := by
  cases h : p.annotation? with
  | none =>
    rw [Input.ofParameter_eq_bind, h]
    rfl
  | some a =>
    rw [found, Option.elim_some]
    by_cases hempty : a.markers p.name = []
    · have hmarkers : p.markers = a.markers p.name := by
        rw [Parameter.markers, h]
        rfl
      rw [resolve, resolve, Input.markers_ofParameter, hmarkers]
      change _ = b.resolveFrom _ (a.markers p.name) none c
      rw [hempty]
      rfl
    · have hmade : Input.ofAnnotation? p.name a (some k) =
          some { a.input p.name with position := some k } := by
        rw [Input.ofAnnotation?]
        exact if_neg (by simpa using hempty)
      rw [Input.ofParameter_eq_bind, h, Option.bind_some, hmade]
      exact resolve_position (a.input p.name) (some k) c

/-- Nothing is found for an annotation that carries foreign metadata only, and nothing is taken. -/
theorem Annotation.resolve_of_foreign {a : Annotation}
    (h : Metadata.ExtendTo b.visitors [] a.metadata) (name : String) (c : Taken) :
    b.resolve (a.input name) c = ⟨.ok none, c, []⟩ := by
  have hplain : (⟨a.type, []⟩ : Annotation).ExtendsTo b.visitors a := ⟨rfl, h⟩
  rw [← hplain.resolve_eq name c]
  rfl

/-- Foreign metadata in the annotation around a declaration changes nothing about what is found for
it and what is taken. -/
theorem Hint.found_around (inner : Hint) {ds ds' : List Metadata}
    (h : Metadata.ExtendTo b.visitors ds ds') (name : String) (c : Taken) :
    b.found name (annotated inner ds).annotation? c =
      b.found name (annotated inner ds').annotation? c := by
  rw [annotation?_annotated, annotation?_annotated]
  let a := inner.ownAnnotation?.getD ⟨inner.innerType, []⟩
  have hextends : Annotation.ExtendsTo b.visitors ⟨a.type, a.metadata ++ ds⟩
      ⟨a.type, a.metadata ++ ds'⟩ := ⟨rfl, (Metadata.ExtendTo.refl a.metadata).append h⟩
  exact hextends.resolve_eq name c

/-- Foreign metadata changes nothing about what is found for a declaration and what is taken. -/
theorem Hint.ExtendsTo.found_eq {h h' : Hint} (hh : h.ExtendsTo b.visitors h') (name : String)
    (c : Taken) : b.found name h.annotation? c = b.found name h'.annotation? c := by
  induction hh with
  | around inner hd => exact found_around inner hd name c
  | inside hbefore inner after hd =>
    rw [annotation?_union hbefore, annotation?_union hbefore]
    exact found_around inner hd name c
  | @outside h hown ds hds =>
    rw [hown, annotation?_annotated]
    cases h.ownAnnotation? with
    | none =>
      have hforeign := Annotation.resolve_of_foreign (a := ⟨h.innerType, [] ++ ds⟩) hds name c
      exact hforeign.symm
    | some a =>
      have hmetadata := (Metadata.ExtendTo.refl a.metadata).append hds
      rw [List.append_nil] at hmetadata
      have hextends : a.ExtendsTo b.visitors ⟨a.type, a.metadata ++ ds⟩ := ⟨rfl, hmetadata⟩
      exact hextends.resolve_eq name c
  | wrap h => rw [annotation?_optional]
  | unwrap h => rw [annotation?_optional]
  | refl h => rfl
  | trans _ _ ih ih' => exact ih.trans ih'

/-- Parameters to which foreign metadata is put are bound alike. -/
theorem Parameter.ExtendsTo.boundAlike {p p' : Parameter} (h : p.ExtendsTo b.visitors p')
    (k : Nat) : b.BoundAlike (Input.ofParameter p k) (Input.ofParameter p' k) where
  name := by rw [Input.name_ofParameter, Input.name_ofParameter, h.name]
  resolve c := by
    cases h with
    | declared name hh =>
      rw [Binder.resolve_ofParameter, Binder.resolve_ofParameter]
      exact hh.found_eq name c
    | undeclared name => rfl
    | newlyDeclared name t hh =>
      -- a bare parameter is bound like one whose type carries nothing
      rw [Binder.resolve_ofParameter, Binder.resolve_ofParameter]
      exact hh.found_eq name c

end Declaration

/-! ### What is found for all declarations of a way of construction -/

namespace Binder

variable {b : Binder} {ps ps' : List Parameter}

/-- The same for all of them. -/
theorem boundAlike_ofParameters (h : List.Forall₂ (Parameter.ExtendsTo b.visitors) ps ps') :
    List.Forall₂ b.BoundAlike (Input.ofParameters ps) (Input.ofParameters ps') := by
  refine forall₂_map (forall₂_zipIdx h 0) ?_
  rintro ⟨p, k⟩ _ ⟨p', _⟩ ⟨hp, rfl⟩
  exact hp.boundAlike k

/-- Foreign metadata changes nothing about the fields that are set. -/
theorem inject_foreign (h : List.Forall₂ (Parameter.ExtendsTo b.visitors) ps ps') (fields : Fields)
    (c : Taken) :
    b.inject (Input.ofFields ps) fields c = b.inject (Input.ofFields ps') fields c := by
  rw [inject_ofFields, inject_ofFields]
  exact inject_congr (boundAlike_ofParameters h) fields c

end Binder
end ConfigAssembly
