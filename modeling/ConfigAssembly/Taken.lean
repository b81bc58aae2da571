import ConfigAssembly.Diagnostic
import ConfigAssembly.Node
import ConfigAssembly.Text.Case

/-!
# What is taken of an element

While the inputs of an element are bound, each attribute and each child may be taken once; what is
taken is no longer found. At the end `Taken.leftovers` reports what nobody took. Names are matched
without regard to case and tried in the order in which they are given.
-/

namespace ConfigAssembly

open ConfigAssembly.Text

/-- What was taken of an element. -/
structure Taken where
  /-- The keys of the taken attributes, as written. -/
  attributes : List String
  /-- The positions of the taken children. -/
  children : List Nat
  deriving DecidableEq, Repr, Inhabited

namespace Taken

variable {α σ : Type}

/-- Nothing is taken. -/
def none : Taken := ⟨[], []⟩

/-- Records that an attribute is taken. -/
def markAttribute (c : Taken) (key : String) : Taken :=
  if c.attributes.contains key then c else { c with attributes := c.attributes ++ [key] }

/-- Records that a child is taken. -/
def markChild (c : Taken) (i : Nat) : Taken :=
  if c.children.contains i then c else { c with children := c.children ++ [i] }

/-- Records that several children are taken. -/
def markChildren (c : Taken) (is : List Nat) : Taken := is.foldl markChild c

/-- Marking an attribute takes that attribute and no other. -/
theorem mem_attributes_markAttribute {c : Taken} {key k : String} :
    k ∈ (c.markAttribute key).attributes ↔ k = key ∨ k ∈ c.attributes := by
  unfold markAttribute
  split
  · rename_i h
    have : key ∈ c.attributes := by simpa using h
    exact ⟨Or.inr, fun hk => hk.elim (fun e => e ▸ this) id⟩
  · simp [or_comm]

/-- It takes no children. -/
@[simp] theorem children_markAttribute (c : Taken) (key : String) :
    (c.markAttribute key).children = c.children := by
  unfold markAttribute
  split <;> rfl

/-- Marking a child takes that child and no other. -/
theorem mem_children_markChild {c : Taken} {i j : Nat} :
    j ∈ (c.markChild i).children ↔ j = i ∨ j ∈ c.children := by
  unfold markChild
  split
  · rename_i h
    have : i ∈ c.children := by simpa using h
    exact ⟨Or.inr, fun hj => hj.elim (fun e => e ▸ this) id⟩
  · simp [or_comm]

/-- It takes no attributes. -/
@[simp] theorem attributes_markChild (c : Taken) (i : Nat) :
    (c.markChild i).attributes = c.attributes := by
  unfold markChild
  split <;> rfl

/-- Marking children takes just these. -/
theorem mem_children_markChildren {c : Taken} {is : List Nat} {j : Nat} :
    j ∈ (c.markChildren is).children ↔ j ∈ is ∨ j ∈ c.children := by
  unfold markChildren
  induction is generalizing c with
  | nil => simp
  | cons i is ih =>
    rw [List.foldl_cons, ih, mem_children_markChild]
    simp only [List.mem_cons]
    grind

/-- It takes no attributes. -/
@[simp] theorem attributes_markChildren (c : Taken) (is : List Nat) :
    (c.markChildren is).attributes = c.attributes := by
  unfold markChildren
  induction is generalizing c with
  | nil => rfl
  | cons i is ih => rw [List.foldl_cons, ih, attributes_markChild]

/-- The attributes of an element that are not taken. -/
def freeAttributes (c : Taken) (n : Tree α σ) : List (String × α) :=
  n.attributes.filter fun a => !c.attributes.contains a.1

/-- The children of an element that are not taken, with their positions. -/
def freeChildren (c : Taken) (n : Tree α σ) : List (Tree α σ × Nat) :=
  n.children.zipIdx.filter fun child => !c.children.contains child.2

/-- The attribute that a name finds: of several that match it the last one. -/
def attributeNamed (c : Taken) (n : Tree α σ) (name : String) : Option (String × α) :=
  (c.freeAttributes n).reverse.find? fun a => sameName a.1 name

/-- The attribute that the first of several names finds that finds any. -/
def peekAttribute (c : Taken) (n : Tree α σ) (names : List String) : Option (String × α) :=
  names.findSome? (c.attributeNamed n)

/-- Finds an attribute and takes it. -/
def takeAttribute (c : Taken) (n : Tree α σ) (names : List String) : Option (String × α) × Taken :=
  match c.peekAttribute n names with
  | some a => (some a, c.markAttribute a.1)
  | .none => (.none, c)

/-- The children that a name finds. -/
def childrenNamed (c : Taken) (n : Tree α σ) (name : String) : List (Tree α σ × Nat) :=
  (c.freeChildren n).filter fun child => sameName child.1.name name

/-- The children that the first of several names finds that finds any. -/
def peekChildren (c : Taken) (n : Tree α σ) : List String → List (Tree α σ × Nat)
  | [] => []
  | name :: names =>
    let found := c.childrenNamed n name
    if found.isEmpty then c.peekChildren n names else found

/-- Finds children and takes them, all or only the first. -/
def takeChildren (c : Taken) (n : Tree α σ) (names : List String) (firstOnly : Bool) :
    List (Tree α σ × Nat) × Taken :=
  let found := c.peekChildren n names
  let chosen := if firstOnly then found.take 1 else found
  (chosen, c.markChildren (chosen.map (·.2)))

/-- Children are found without looking at anything else. -/
theorem takeChildren_congr {n n' : Tree α σ} (h : n.children = n'.children) (c : Taken)
    (names : List String)
    (firstOnly : Bool) : c.takeChildren n names firstOnly = c.takeChildren n' names firstOnly := by
  have hnamed : ∀ name, c.childrenNamed n name = c.childrenNamed n' name := by
    intro name
    rw [childrenNamed, childrenNamed, freeChildren, freeChildren, h]
  have hpeek : c.peekChildren n names = c.peekChildren n' names := by
    induction names with
    | nil => rfl
    | cons name names ih => rw [peekChildren, peekChildren, ih, hnamed]
  rw [takeChildren, takeChildren, hpeek]

/-- What is taken when a build begins: the children with reserved names, which are given in lower
case, are none of its inputs. -/
def reserving (n : Tree α σ) (reserved : List String) : Taken :=
  ⟨[], (n.children.zipIdx.filter fun child => reserved.contains (lower child.1.name)).map (·.2)⟩

/-- How an element is called when a child of it was left over. -/
def ownerLabel (n : Node) : String :=
  if n.elementName == n.name then n.name else n.elementName ++ " " ++ n.name

/-- The diagnostic about attributes that nobody took. -/
def unusedAttributes (c : Taken) (n : Node) : List Diagnostic :=
  let keys := (c.freeAttributes n).map (·.1)
  let listed := ", ".intercalate (keys.map fun k => "\"" ++ k ++ "\"")
  match keys with
  | [] => []
  | [_] =>
    [⟨.unusedAttribute, n.name ++ " contains an invalid element or attribute " ++ listed, n.name⟩]
  | _ => [⟨.unusedAttribute, n.name ++ " contains invalid attributes " ++ listed, n.name⟩]

/-- The diagnostics about children that nobody took, one for each. -/
def unusedChildren (c : Taken) (n : Node) : List Diagnostic :=
  (c.freeChildren n).map fun child =>
    ⟨.unusedChild,
      ownerLabel n ++ " has no parameter that matches element " ++ child.1.name, n.name⟩

/-- What nobody took. Children are not looked at if the plugin looks after them itself. -/
def leftovers (c : Taken) (n : Node) (deferChildren : Bool) : List Diagnostic :=
  c.unusedAttributes n ++ if deferChildren then [] else c.unusedChildren n

end Taken
end ConfigAssembly
