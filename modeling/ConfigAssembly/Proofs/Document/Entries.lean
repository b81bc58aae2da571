import Mathlib.Data.List.Forall2
import ConfigAssembly.Document.Elements

/-!
# The entries of a mapping one by one

An entry of a mapping is read by itself, as a `Part` of its element: an attribute, or elements
below. `PlainTree.ofItems_eq` and `PlainTree.ofContent_mapping` give the reader in this form, where
the items of a sequence and the entries of a mapping are read one after the other and the parts are
put together at the end. What holds of a single item or entry then holds of all (`mapM_eq_ok_iff`,
`exists_of_mapM_eq_error`).
-/

namespace ConfigAssembly

/-! ### Reading without links -/

/-- An element tree in which nothing is noted. -/
abbrev PlainTree := Tree String Unit

namespace PlainTree

/-- An element without anything in it. -/
def empty (name : String) : PlainTree := ⟨name, [], none, (), []⟩

/-- An element with an attribute written. -/
def withAttribute (t : PlainTree) (key value : String) : PlainTree :=
  { t with attributes := Assoc.insert key value t.attributes }

/-- An element with more children at the end. -/
def withChildren (t : PlainTree) (children : List PlainTree) : PlainTree :=
  { t with children := t.children ++ children }

mutual

/-- The element of a name with given content. -/
def ofContent (name : String) : Content → Except ShapeFault PlainTree
  | .scalar .null => .ok (empty name)
  | .scalar v => (scalarText v).map fun s => { empty name with text := some s }
  | .sequence _ => .error (.sequenceAt name)
  | .againSequence => .error (.sequenceAt name)
  | .againMapping => .error .endless
  | .mapping es => ofEntries (empty name) es

/-- An element with the entries of a mapping added. -/
def ofEntries (t : PlainTree) : List (Value × Content) → Except ShapeFault PlainTree
  | [] => .ok t
  | (k, c) :: es => do
    let name ← keyText k
    let t ← ofEntry t name c
    ofEntries t es

/-- An element with the value of an entry added. -/
def ofEntry (t : PlainTree) (name : String) : Content → Except ShapeFault PlainTree
  | .scalar .null => .ok (t.withChildren [empty name])
  | .scalar v => (scalarText v).map fun s => t.withAttribute name s
  | .sequence items => (ofItems name items).map t.withChildren
  | .againSequence => .error .endless
  | .againMapping => .error .endless
  | .mapping inner => (ofEntries (empty name) inner).map fun child => t.withChildren [child]

/-- The elements of one name for the items of a sequence. -/
def ofItems (name : String) : List Content → Except ShapeFault (List PlainTree)
  | [] => .ok []
  | c :: cs => do
    let t ← ofContent name c
    let ts ← ofItems name cs
    pure (t :: ts)

end

/-- The root element of a document. -/
def ofDocument : Content → Except ShapeFault PlainTree
  | .mapping [(k, c)] => do
    let name ← keyText k
    ofContent name c
  | _ => .error .notOneRoot

end PlainTree

/-! ### Computing one after the other -/

section Each

variable {α β ε : Type} {f : α → Except ε β}

/-- What is made of a result comes of a result. -/
theorem map_eq_ok_iff {r : Except ε α} {g : α → β} {y : β} :
    r.map g = .ok y ↔ ∃ x, r = .ok x ∧ g x = y := by
  cases r <;> simp [Except.map]

/-- A failure stays what it is. -/
theorem map_eq_error_iff {r : Except ε α} {g : α → β} {e : ε} :
    r.map g = .error e ↔ r = .error e := by
  cases r <;> simp [Except.map]

/-- All of several computations come to something just if each of them does. -/
theorem mapM_eq_ok_iff {xs : List α} {ys : List β} :
    xs.mapM f = .ok ys ↔ List.Forall₂ (fun x y => f x = .ok y) xs ys := by
  induction xs generalizing ys with
  | nil =>
    rw [List.mapM_nil, List.forall₂_nil_left_iff]
    exact ⟨fun h => (Except.ok.inj h).symm, fun h => congrArg Except.ok h.symm⟩
  | cons x xs ih =>
    rw [List.mapM_cons, List.forall₂_cons_left_iff]
    cases hx : f x with
    | error e =>
      refine ⟨nofun, ?_⟩
      rintro ⟨y, _, hy, _⟩
      cases hy
    | ok y =>
      cases hxs : xs.mapM f with
      | error e =>
        refine ⟨nofun, ?_⟩
        rintro ⟨_, ys', _, hys', _⟩
        cases hxs.symm.trans (ih.2 hys')
      | ok ys' =>
        refine ⟨fun h => ⟨y, ys', rfl, ih.1 hxs, (Except.ok.inj h).symm⟩, ?_⟩
        rintro ⟨_, zs, hy, hzs, rfl⟩
        obtain rfl := Except.ok.inj hy
        obtain rfl := Except.ok.inj (hxs.symm.trans (ih.2 hzs))
        rfl

/-- The error of several computations is that of one of them. -/
theorem exists_of_mapM_eq_error {xs : List α} {e : ε} (h : xs.mapM f = .error e) :
    ∃ x ∈ xs, f x = .error e := by
  induction xs with
  | nil => cases h
  | cons x xs ih =>
    rw [List.mapM_cons] at h
    cases hx : f x with
    | error e' =>
      rw [hx] at h
      cases h
      exact ⟨x, List.mem_cons_self, hx⟩
    | ok y =>
      cases hxs : xs.mapM f with
      | error e' =>
        rw [hx, hxs] at h
        cases h
        obtain ⟨x', hmem, hx'⟩ := ih hxs
        exact ⟨x', List.mem_cons_of_mem x hmem, hx'⟩
      | ok ys =>
        rw [hx, hxs] at h
        cases h

end Each

namespace PlainTree

/-! ### Parts of an element -/

/-- No more children leave an element as it is. -/
@[simp] theorem withChildren_nil (t : PlainTree) : t.withChildren [] = t := by
  cases t
  simp [withChildren]

/-- What an entry of a mapping is to its element. -/
inductive Part where
  | written (key value : String)
  | below (ts : List PlainTree)

/-- The attribute that a part is, if it is one. -/
def Part.attributes : Part → List (String × String)
  | .written key value => [(key, value)]
  | .below _ => []

/-- The elements that a part is. -/
def Part.children : Part → List PlainTree
  | .written _ _ => []
  | .below ts => ts

/-- An element with a part added. -/
def withPart (t : PlainTree) : Part → PlainTree
  | .written key value => t.withAttribute key value
  | .below ts => t.withChildren ts

/-- The parts of an element: its attributes are written one after the other, its children come in
order. -/
theorem foldl_withPart (t : PlainTree) (ps : List Part) :
    ps.foldl withPart t =
      { t with
        attributes := Assoc.insertAll t.attributes (ps.flatMap Part.attributes)
        children := t.children ++ ps.flatMap Part.children } := by
  induction ps generalizing t with
  | nil =>
    rw [List.flatMap_nil, List.flatMap_nil, List.append_nil]
    cases t
    rfl
  | cons p ps ih =>
    rw [List.foldl_cons, ih]
    cases p with
    | written key value => rfl
    | below ts => simp [withPart, withChildren, Part.attributes, Part.children]

/-! ### Reading part by part -/

/-- A scalar is the text of its element. -/
theorem ofContent_scalar (name : String) {v : Value} (hv : v ≠ .null) :
    ofContent name (.scalar v) =
      (scalarText v).map fun s => { empty name with text := some s } := by
  cases v <;> first | rfl | exact absurd rfl hv

/-- An entry with a scalar is an attribute. -/
theorem ofEntry_scalar (t : PlainTree) (name : String) {v : Value} (hv : v ≠ .null) :
    ofEntry t name (.scalar v) = (scalarText v).map fun s => t.withAttribute name s := by
  cases v <;> first | rfl | exact absurd rfl hv

/-- The part that the value of an entry with a given key is. -/
def readPart (name : String) : Content → Except ShapeFault Part
  | .scalar .null => .ok (.below [empty name])
  | .scalar v => (scalarText v).map (.written name)
  | .sequence items => (items.mapM (ofContent name)).map .below
  | .mapping es => (ofContent name (.mapping es)).map fun t => .below [t]
  | .againSequence => .error .endless
  | .againMapping => .error .endless

/-- So it is as a part. -/
theorem readPart_scalar (name : String) {v : Value} (hv : v ≠ .null) :
    readPart name (.scalar v) = (scalarText v).map (.written name) := by
  cases v <;> first | rfl | exact absurd rfl hv

/-- The part that an entry is. -/
def readEntry (e : Value × Content) : Except ShapeFault Part := do
  let name ← keyText e.1
  readPart name e.2

/-- The items of a sequence are added to an element one by one. -/
theorem ofItems_cons (t : PlainTree) (name : String) (c : Content) (cs : List Content) :
    (ofItems name (c :: cs)).map t.withChildren = (do
      let child ← ofContent name c
      (ofItems name cs).map (t.withChildren [child]).withChildren) := by
  rw [ofItems]
  cases ofContent name c with
  | error f => rfl
  | ok child =>
    cases ofItems name cs with
    | error f => rfl
    | ok children => simp [bind, Except.bind, pure, Except.pure, Except.map, withChildren]

/-- The items of a sequence are read one after the other, until one fails. -/
theorem ofItems_eq (name : String) (cs : List Content) :
    ofItems name cs = cs.mapM (ofContent name) := by
  induction cs with
  | nil => rfl
  | cons c cs ih => rw [ofItems, ih, List.mapM_cons]

/-- Adding the value of an entry is reading it and adding the part. -/
theorem ofEntry_eq (t : PlainTree) (name : String) (c : Content) :
    ofEntry t name c = (readPart name c).map t.withPart := by
  cases c with
  | scalar v =>
    by_cases hnull : v = .null
    · rw [hnull]
      rfl
    · rw [ofEntry_scalar t name hnull, readPart_scalar name hnull]
      cases scalarText v <;> rfl
  | sequence items =>
    rw [ofEntry, readPart, ofItems_eq]
    cases items.mapM (ofContent name) <;> rfl
  | mapping inner =>
    rw [ofEntry, readPart, ofContent]
    cases ofEntries (empty name) inner <;> rfl
  | againSequence => rfl
  | againMapping => rfl

/-- Adding an entry is reading it and adding the part. -/
theorem ofEntries_cons (t : PlainTree) (e : Value × Content) (es : List (Value × Content)) :
    ofEntries t (e :: es) = (do
      let p ← readEntry e
      ofEntries (t.withPart p) es) := by
  obtain ⟨k, c⟩ := e
  rw [ofEntries, readEntry]
  cases keyText k with
  | error f => rfl
  | ok name =>
    dsimp only [bind, Except.bind]
    rw [ofEntry_eq]
    cases readPart name c <;> rfl

/-- The entries of a mapping are read one after the other, and their parts put together. -/
theorem ofEntries_eq (t : PlainTree) (es : List (Value × Content)) :
    ofEntries t es = (es.mapM readEntry).map fun ps => ps.foldl withPart t := by
  induction es generalizing t with
  | nil => rw [ofEntries, List.mapM_nil]; rfl
  | cons e es ih =>
    rw [ofEntries_cons, List.mapM_cons]
    cases readEntry e with
    | error f => rfl
    | ok p =>
      change ofEntries (t.withPart p) es = _
      rw [ih]
      cases es.mapM readEntry <;> rfl

/-- The element of a mapping has the parts that its entries are. -/
theorem ofContent_mapping (name : String) (es : List (Value × Content)) :
    ofContent name (.mapping es) =
      (es.mapM readEntry).map fun ps => ps.foldl withPart (empty name) := by
  rw [ofContent, ofEntries_eq]

end PlainTree
end ConfigAssembly
