import Mathlib.Data.List.Forall2
import ConfigAssembly.Binding

/-!
# Binding as a sequence of steps

The functions that bind inputs stop at the first error and hand on what is taken and reported until
then. `Outcome.bind` is this one step; each of the functions is rewritten into it by one equation
(`Binder.inject_cons`, `Binder.values_cons`, `Binder.arguments_eq`). What the inputs are found to
have does not depend on what is done with it: `Binder.resolveAll` finds it, and setting fields and
collecting arguments are functions of what it finds (`Binder.inject_eq`, `Binder.values_eq`).
`Binder.inject_eq_error_iff` says where binding stops.
-/

namespace ConfigAssembly

/-- Goes on with the value of an outcome, from what is taken so far and after what is reported. -/
def Outcome.bind {α β : Type} (o : Outcome α) (k : α → Taken → Outcome β) : Outcome β :=
  match o with
  | ⟨.error e, c, log⟩ => ⟨.error e, c, log⟩
  | ⟨.ok x, c, log⟩ => (k x c).after log

/-- The outcome with another result made of its value. -/
def Outcome.map {α β : Type} (f : α → β) (o : Outcome α) : Outcome β :=
  ⟨o.result.map f, o.taken, o.log⟩

namespace Outcome

variable {α β γ : Type}

/-- What is made of the result in the end may be made of that of the last step. -/
theorem map_bind (f : β → γ) (o : Outcome α) (k : α → Taken → Outcome β) :
    (o.bind k).map f = o.bind fun x c => (k x c).map f := by
  rcases o with ⟨_ | x, c, log⟩ <;> rfl

/-- Going on with a function of the value alone only changes the value. -/
theorem bind_ok (f : α → β) (o : Outcome α) : (o.bind fun x c => ⟨.ok (f x), c, []⟩) = o.map f := by
  rcases o with ⟨_ | x, c, log⟩
  · rfl
  · simp [bind, map, after, Except.map]

/-- What is made of a result comes of a result. -/
theorem map_eq_ok_iff {f : α → β} {o : Outcome α} {y : β} :
    (o.map f).result = .ok y ↔ ∃ x, o.result = .ok x ∧ f x = y := by
  rcases o with ⟨_ | x, c, log⟩ <;> simp [map, Except.map]

/-- Two steps go well if each does. -/
theorem result_bind_eq_ok_iff {o : Outcome α} {k : α → Taken → Outcome β} {y : β} :
    (o.bind k).result = .ok y ↔ ∃ x, o.result = .ok x ∧ (k x o.taken).result = .ok y := by
  rcases o with ⟨_ | x, c, log⟩ <;> simp [bind, after]

/-- They fail if the first does, or the second after the first. -/
theorem result_bind_eq_error_iff {o : Outcome α} {k : α → Taken → Outcome β} {e : InputError} :
    (o.bind k).result = .error e ↔
      o.result = .error e ∨ ∃ x, o.result = .ok x ∧ (k x o.taken).result = .error e := by
  rcases o with ⟨_ | x, c, log⟩ <;> simp [bind, after]

/-- After a step that goes well the result is that of the next. -/
theorem result_bind_of_ok {o : Outcome α} {k : α → Taken → Outcome β} {x : α}
    (h : o.result = .ok x) : (o.bind k).result = (k x o.taken).result := by
  obtain ⟨r, c, log⟩ := o
  obtain rfl : r = .ok x := h
  rfl

/-- So is what is taken. -/
theorem taken_bind_of_ok {o : Outcome α} {k : α → Taken → Outcome β} {x : α}
    (h : o.result = .ok x) : (o.bind k).taken = (k x o.taken).taken := by
  obtain ⟨r, c, log⟩ := o
  obtain rfl : r = .ok x := h
  rfl

end Outcome

namespace Binder

/-! ### The functions step by step -/

/-- A marker that no visitor is for is passed over. -/
theorem resolveFrom_cons_of_none {b : Binder} {m : Marker} (h : b.visitors.find? m.kind = none)
    (i : Input) (ms : List Marker) (last : Option Value) (c : Taken) :
    b.resolveFrom i (m :: ms) last c = b.resolveFrom i ms last c := by
  rw [resolveFrom, h]

/-- A marker is visited before those after it, and its value counts until one of them has one. -/
theorem resolveFrom_cons_of_some {b : Binder} {m : Marker} {d : Visitor}
    (h : b.visitors.find? m.kind = some d) (i : Input) (ms : List Marker) (last : Option Value)
    (c : Taken) :
    b.resolveFrom i (m :: ms) last c =
      (d.visit (b.occasion i m) c).bind fun x c => b.resolveFrom i ms (some x) c := by
  rw [resolveFrom, h]
  dsimp only
  rcases d.visit (b.occasion i m) c with ⟨_ | _, _, _⟩ <;> rfl

/-- Fields are set one after the other. -/
theorem inject_cons (b : Binder) (i : Input) (is : List Input) (fields : Fields) (c : Taken) :
    b.inject (i :: is) fields c =
      (b.resolve i c).bind fun x c =>
        b.inject is (x.elim fields fun x => fields.insert i.name x) c := by
  rw [inject]
  rcases b.resolve i c with ⟨_ | _ | _, _, _⟩ <;> rfl

/-- Arguments are computed one after the other; one without a value is null. -/
theorem values_cons (b : Binder) (i : Input) (is : List Input) (c : Taken) :
    b.values (i :: is) c =
      (b.resolve i c).bind fun x c =>
        (b.values is c).bind fun xs c => ⟨.ok (x.getD .null :: xs), c, []⟩ := by
  rw [values]
  rcases b.resolve i c with ⟨_ | _, c, _⟩
  · rfl
  · simp only [Outcome.bind]
    rcases b.values is c with ⟨_ | _, _, _⟩ <;> simp [Outcome.after]

/-- The arguments are the values, and a record of their number. -/
theorem arguments_eq (b : Binder) (is : List Input) (c : Taken) :
    b.arguments is c = (b.values is c).bind fun xs c =>
      ⟨.ok xs, c, [.debug ("Arguments for " ++ b.node.name ++ ": " ++ toString is.length ++
        " parameter(s)")]⟩ := by
  rw [arguments]
  rcases b.values is c with ⟨_ | _, _, _⟩ <;> rfl

/-- Of an input itself only its aliases and its type matter for the visits of its markers. -/
theorem resolveFrom_congr {b : Binder} {i i' : Input} (haliases : i.aliases = i'.aliases)
    (htype : i.type = i'.type) (ms : List Marker) (last : Option Value) (c : Taken) :
    b.resolveFrom i ms last c = b.resolveFrom i' ms last c := by
  induction ms generalizing last c with
  | nil => rfl
  | cons m ms ih =>
    cases hd : b.visitors.find? m.kind with
    | none => rw [resolveFrom_cons_of_none hd, resolveFrom_cons_of_none hd, ih]
    | some d =>
      have hoccasion : b.occasion i m = b.occasion i' m := by
        rw [occasion, occasion, haliases, htype]
      rw [resolveFrom_cons_of_some hd, resolveFrom_cons_of_some hd, hoccasion]
      simp only [ih]

/-! ### What inputs are found to have -/

/-- Whether a visitor is for one of some markers. -/
def handles (b : Binder) (ms : List Marker) : Bool :=
  ms.any fun m => (b.visitors.find? m.kind).isSome

/-- The values that several inputs are found to have, nothing for those that no visitor is for. -/
def resolveAll (b : Binder) : List Input → Taken → Outcome (List (Option Value))
  | [], c => ⟨.ok [], c, []⟩
  | i :: is, c => (b.resolve i c).bind fun x c => (b.resolveAll is c).map (x :: ·)

/-- The fields with the values that were found for inputs. -/
def setFields : List Input → List (Option Value) → Fields → Fields
  | i :: is, x :: xs, fields => setFields is xs (x.elim fields fun x => fields.insert i.name x)
  | _, _, fields => fields

/-- Setting fields is resolving the inputs and setting what came of them. -/
theorem inject_eq (b : Binder) (is : List Input) (fields : Fields) (c : Taken) :
    b.inject is fields c = (b.resolveAll is c).map fun xs => setFields is xs fields := by
  induction is generalizing fields c with
  | nil => rfl
  | cons i is ih =>
    rw [inject_cons, resolveAll, Outcome.map_bind]
    congr 1
    funext x c
    rw [ih]
    rcases b.resolveAll is c with ⟨_ | xs, c, log⟩ <;> rfl

/-- The arguments are what resolving the inputs comes to. -/
theorem values_eq (b : Binder) (is : List Input) (c : Taken) :
    b.values is c = (b.resolveAll is c).map (List.map (·.getD .null)) := by
  induction is generalizing c with
  | nil => rfl
  | cons i is ih =>
    rw [values_cons, resolveAll, Outcome.map_bind]
    congr 1
    funext x c
    rw [Outcome.bind_ok, ih]
    rcases b.resolveAll is c with ⟨_ | xs, c, log⟩ <;> rfl

/-- Two inputs of one name that are found to have the same and take the same. -/
structure BoundAlike (b : Binder) (i i' : Input) : Prop where
  name : i.name = i'.name
  resolve : ∀ c, b.resolve i c = b.resolve i' c

section BoundAlike

variable {b : Binder} {is is' : List Input}

/-- Inputs that are bound alike are resolved alike. -/
theorem resolveAll_congr (h : List.Forall₂ b.BoundAlike is is') (c : Taken) :
    b.resolveAll is c = b.resolveAll is' c := by
  induction h generalizing c with
  | nil => rfl
  | cons hi _ ih => simp only [resolveAll, hi.resolve, ih]

/-- Their fields are the same. -/
theorem setFields_congr (h : List.Forall₂ b.BoundAlike is is') (xs : List (Option Value))
    (fields : Fields) : setFields is xs fields = setFields is' xs fields := by
  induction h generalizing xs fields with
  | nil => rfl
  | cons hi _ ih =>
    cases xs with
    | nil => rfl
    | cons x xs => rw [setFields, setFields, ih, hi.name]

/-- So they are set alike. -/
theorem inject_congr (h : List.Forall₂ b.BoundAlike is is') (fields : Fields) (c : Taken) :
    b.inject is fields c = b.inject is' fields c := by
  rw [inject_eq, inject_eq, resolveAll_congr h]
  simp only [setFields_congr h]

end BoundAlike

/-! ### Where binding stops -/

/-- Setting fields fails just when some input has an error after all before it were bound, and with
this error; the inputs after it are not looked at. -/
theorem inject_eq_error_iff {b : Binder} {is : List Input} {fields : Fields} {c : Taken}
    {e : InputError} :
    (b.inject is fields c).result = .error e ↔
      ∃ before i after fields', is = before ++ i :: after ∧
        (b.inject before fields c).result = .ok fields' ∧
        (b.resolve i (b.inject before fields c).taken).result = .error e := by
  induction is generalizing fields c with
  | nil => simp [inject]
  | cons i is ih =>
    rw [inject_cons, Outcome.result_bind_eq_error_iff]
    simp only [ih]
    constructor
    · rintro (h | ⟨x, hx, before, j, after, fields', rfl, hbefore, hj⟩)
      · exact ⟨[], i, is, fields, rfl, rfl, h⟩
      · refine ⟨i :: before, j, after, fields', rfl, ?_, ?_⟩
        · rw [inject_cons, Outcome.result_bind_of_ok hx]
          exact hbefore
        · rw [inject_cons, Outcome.taken_bind_of_ok hx]
          exact hj
    · rintro ⟨_ | ⟨i', before⟩, j, after, fields', he, hbefore, hj⟩
      · obtain ⟨rfl, rfl⟩ := List.cons.inj he
        exact Or.inl hj
      · obtain ⟨rfl, rfl⟩ := List.cons.inj he
        rw [inject_cons, Outcome.result_bind_eq_ok_iff] at hbefore
        obtain ⟨x, hx, hbefore⟩ := hbefore
        rw [inject_cons, Outcome.taken_bind_of_ok hx] at hj
        exact Or.inr ⟨x, hx, before, j, after, fields', rfl, hbefore, hj⟩

end Binder

/-! ### The visitors that bind inputs

A law about builds that the built-in visitors keep is kept with other ones only if they do what it
needs of them. Such laws ask it of the visitors that bind inputs of the plugins in use. -/

/-- The visitors for the markers of an input have a property. -/
def Input.BoundBy (P : Visitor → Prop) (visitors : VisitorRegistry) (i : Input) : Prop :=
  ∀ m ∈ i.markers, ∀ d, visitors.find? m.kind = some d → P d

/-- The visitors that bind the inputs of a plugin have a property. -/
structure PluginType.BoundBy (P : Visitor → Prop) (visitors : VisitorRegistry) (t : PluginType) :
    Prop where
  builder : ∀ f b, t.strategy.builderFactory = some f → f.start = .ok (some b) →
    ∀ i ∈ b.inputs, i.BoundBy P visitors
  factory : ∀ f, t.strategy.factory = some f → ∀ i ∈ f.inputs, i.BoundBy P visitors

/-- What all visitors of a type do follows from what they do. -/
theorem PluginType.BoundBy.mono {P Q : Visitor → Prop} {visitors : VisitorRegistry} {t : PluginType}
    (h : t.BoundBy P visitors) (hPQ : ∀ d, P d → Q d) : t.BoundBy Q visitors where
  builder f b hf hs i hi m hm d hd := hPQ d (h.builder f b hf hs i hi m hm d hd)
  factory f hf i hi m hm d hd := hPQ d (h.factory f hf i hi m hm d hd)

/-- The built-in visitors are five. -/
theorem VisitorRegistry.eq_of_find?_standard {kind : String} {d : Visitor}
    (h : standard.find? kind = some d) :
    kind = d.kind ∧ d ∈ [Visitor.ofAttribute, .ofElement, .ofText, .ofNode, .ofConfiguration] := by
  obtain ⟨d', hd', he⟩ := List.mem_map.1 (Assoc.mem_of_get? h)
  obtain ⟨rfl, rfl⟩ := Prod.mk.inj he
  exact ⟨rfl, hd'⟩

end ConfigAssembly
