/-!
# Element trees

An element has a name, attributes in their order, at most one text, a slot for what a user of the
tree notes at the element, and children in their order. The attributes of a tree as it is written
are texts; a tree made otherwise may have others. `Tree.walk` lists a tree bottom-up, `Tree.at?`
finds an element by its position.

In a `LinkedTree` the elements refer to their parents. A number stands for an element wherever it is
referred to; an element gets the number of its parent when it is added to it. Only the loader makes
such trees: nothing that is done to a tree afterwards reads or writes a parent.
-/

namespace ConfigAssembly

/-- An element with what is below it; `α` are the values of its attributes, `σ` is what its slot
holds. -/
structure Tree (α σ : Type) where
  /-- The name of the element, as written. -/
  name : String
  /-- The attributes in their order. -/
  attributes : List (String × α)
  /-- The text of the element. -/
  text : Option String
  /-- What is noted at the element. -/
  slot : σ
  /-- The elements directly below. -/
  children : List (Tree α σ)
  deriving Inhabited

/-- A position in a tree: the child to take at each step down from the root. -/
abbrev Position := List Nat

namespace Tree

variable {α β σ τ : Type}

/-- The value of an attribute. -/
def attribute? (t : Tree α σ) (key : String) : Option α := t.attributes.lookup key

mutual

/-- The elements of a tree, each after those below it. -/
def walk : Tree α σ → List (Tree α σ)
  | ⟨name, attributes, text, slot, children⟩ =>
    walkAll children ++ [⟨name, attributes, text, slot, children⟩]

/-- The elements of several trees, one tree after the other. -/
def walkAll : List (Tree α σ) → List (Tree α σ)
  | [] => []
  | t :: ts => walk t ++ walkAll ts

end

mutual

/-- The tree with other values of attributes and other slots. -/
def map (f : α → β) (g : σ → τ) : Tree α σ → Tree β τ
  | ⟨name, attributes, text, slot, children⟩ =>
    ⟨name, attributes.map fun (k, v) => (k, f v), text, g slot, mapAll f g children⟩

/-- Several trees with other values of attributes and other slots. -/
def mapAll (f : α → β) (g : σ → τ) : List (Tree α σ) → List (Tree β τ)
  | [] => []
  | t :: ts => map f g t :: mapAll f g ts

end

/-- A walk over a tree ends with the tree, after the walks over its children. -/
theorem walk_eq (t : Tree α σ) : t.walk = walkAll t.children ++ [t] := by
  cases t; rfl

/-- Trees are mapped one by one. -/
theorem mapAll_eq (f : α → β) (g : σ → τ) (ts : List (Tree α σ)) :
    mapAll f g ts = ts.map (map f g) := by
  induction ts with
  | nil => rfl
  | cons t ts ih => simp [mapAll, ih]

/-- Trees are walked over one after the other. -/
theorem walkAll_eq (ts : List (Tree α σ)) : walkAll ts = ts.flatMap walk := by
  induction ts with
  | nil => rfl
  | cons t ts ih => simp [walkAll, ih]

/-- A walk comes to the tree itself. -/
theorem mem_walk_self (t : Tree α σ) : t ∈ t.walk := by
  simp [walk_eq]

/-- A walk comes to all that the walks over the children come to. -/
theorem mem_walk_of_mem_children {t c e : Tree α σ} (hc : c ∈ t.children) (he : e ∈ c.walk) :
    e ∈ t.walk := by
  rw [walk_eq, walkAll_eq]
  exact List.mem_append_left _ (List.mem_flatMap.2 ⟨c, hc, he⟩)

/-- The element at a position. -/
def at? (t : Tree α σ) : Position → Option (Tree α σ)
  | [] => some t
  | i :: p => match t.children[i]? with
    | none => none
    | some c => c.at? p

/-- The tree with the element at a position changed; a position outside the tree changes nothing. -/
def modifyAt (t : Tree α σ) (p : Position) (f : Tree α σ → Tree α σ) : Tree α σ :=
  match p with
  | [] => f t
  | i :: p => { t with children := t.children.modify i (·.modifyAt p f) }

/-- The element that the element at a position is below of; there is none for the root. -/
def parent? (t : Tree α σ) (p : Position) : Option (Tree α σ) :=
  if p.isEmpty then none else t.at? p.dropLast

/-- The tree with nothing noted in it. -/
def plain (t : Tree α σ) : Tree α Unit := t.map id fun _ => ()

end Tree

/-- What an element refers to. -/
structure Link where
  /-- The number that stands for the element itself. -/
  number : Nat
  /-- The number of the element that it was added to. -/
  parent : Option Nat
  deriving DecidableEq, Repr, Inhabited

/-- A tree whose elements refer to their parents. -/
abbrev LinkedTree (α : Type) := Tree α Link

namespace LinkedTree

variable {α : Type}

/-- The element with another one as its parent. -/
def adoptedBy (t : LinkedTree α) (number : Nat) : LinkedTree α :=
  { t with slot := { t.slot with parent := some number } }

/-- A new element, which its children refer to. -/
def create (number : Nat) (name : String) (attributes : List (String × α)) (text : Option String)
    (children : List (LinkedTree α)) : LinkedTree α :=
  ⟨name, attributes, text, ⟨number, none⟩, children.map (·.adoptedBy number)⟩

/-- The element with one more child at the end, which refers to it. -/
def addChild (t child : LinkedTree α) : LinkedTree α :=
  { t with children := t.children ++ [child.adoptedBy t.slot.number] }

/-- The element of a tree that an element refers to as its parent. -/
def parentOf? (t e : LinkedTree α) : Option (LinkedTree α) :=
  e.slot.parent.bind fun number => t.walk.find? (·.slot.number == number)

end LinkedTree
end ConfigAssembly
