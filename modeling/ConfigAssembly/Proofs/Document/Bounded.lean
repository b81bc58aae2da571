import Mathlib.Data.List.Perm.Subperm
import ConfigAssembly.Proofs.Document.Entries
import ConfigAssembly.Proofs.Yaml.Objects

/-!
# Reading objects with a bound

The objects of a document may hold themselves, by an alias inside of what it stands for. Elements
are read from them with no regard to that: `PlainTree.documentWithin` is this reading, with a bound
on how many elements are read within one another. The content of a document has a mark where an
object comes again; reading compares with what the content comes to:

* `PlainTree.reading_follows`: whatever the bound, reading runs into it or comes to the same as the
  content. This holds inside of collections whose own reading runs into the bound (`Stuck`).
* `PlainTree.bound_suffices`: with a bound of more than the nodes that are not around a place,
  reading comes to the same as the content, unless that is endless.

`endsAs_documentWithin` and `documentWithin_eq` say so of a whole document. So if its content is
endless, no bound is enough.
-/

namespace ConfigAssembly

open Yaml

/-! ### Computing something that may not end -/

/-- A computation runs into its bound, or it comes to a given outcome. -/
def EndsAs {α : Type} (r r' : Except ShapeFault α) : Prop := r = .error .endless ∨ r = r'

namespace EndsAs

variable {α β : Type} {r r' : Except ShapeFault α}

/-- What comes to the same comes to the same end. -/
theorem refl (r : Except ShapeFault α) : EndsAs r r := .inr rfl

/-- Readings of which each ends as the other are the same. -/
theorem antisymm (h : EndsAs r r') (h' : EndsAs r' r) : r = r' := by
  rcases h with rfl | h
  · rcases h' with h' | h'
    · exact h'.symm
    · exact h'.symm
  · exact h

/-- What is made of the results afterwards changes nothing about that. -/
theorem map (h : EndsAs r r') (f : α → β) : EndsAs (r.map f) (r'.map f) := by
  rcases h with rfl | rfl
  · exact .inl rfl
  · exact .refl _

/-- Nor does going on in the same way. -/
theorem bind (h : EndsAs r r') {f g : α → Except ShapeFault β} (hf : ∀ a, EndsAs (f a) (g a)) :
    EndsAs (r >>= f) (r' >>= g) := by
  rcases h with rfl | rfl
  · exact .inl rfl
  · cases r with
    | error e => exact .refl _
    | ok a => exact hf a

/-- Nor does reading a list item by item. -/
theorem mapM {f g : α → Except ShapeFault β} {xs : List α} (h : ∀ x ∈ xs, EndsAs (f x) (g x)) :
    EndsAs (xs.mapM f) (xs.mapM g) := by
  induction xs with
  | nil => exact .refl _
  | cons x xs ih =>
    obtain ⟨hx, hxs⟩ := List.forall_mem_cons.1 h
    rw [List.mapM_cons, List.mapM_cons]
    exact hx.bind fun y => (ih hxs).bind fun ys => .refl _

end EndsAs

/-! ### Outcomes that are endless together -/

/-- Two computations come to something, are endless or are faulty, both of them. -/
inductive SameEnd {α β : Type} : Except ShapeFault α → Except ShapeFault β → Prop where
  | ok (a : α) (b : β) : SameEnd (.ok a) (.ok b)
  | endless : SameEnd (.error .endless) (.error .endless)
  | fault {f g : ShapeFault} (hf : f ≠ .endless) (hg : g ≠ .endless) : SameEnd (.error f) (.error g)

namespace SameEnd

variable {α β : Type}

/-- What comes to the same comes to the same end. -/
theorem refl (r : Except ShapeFault α) : SameEnd r r := by
  cases r with
  | ok a => exact .ok a a
  | error f =>
    by_cases hf : f = .endless
    · rw [hf]
      exact .endless
    · exact .fault hf hf

/-- What is made of the results afterwards changes nothing about that. -/
theorem map {r r' : Except ShapeFault α} (h : SameEnd r r') (f g : α → β) :
    SameEnd (r.map f) (r'.map g) := by
  cases h with
  | ok a b => exact .ok _ _
  | endless => exact .endless
  | fault hf hg => exact .fault hf hg

/-- Nor does going on in the same way. -/
theorem bind {r r' : Except ShapeFault α} (h : SameEnd r r') {f g : α → Except ShapeFault β}
    (hf : ∀ a b, SameEnd (f a) (g b)) : SameEnd (r >>= f) (r' >>= g) := by
  cases h with
  | ok a b => exact hf a b
  | endless => exact .endless
  | fault hf hg => exact .fault hf hg

/-- Nor does reading a list item by item. -/
theorem mapM {f g : α → Except ShapeFault β} (h : ∀ x, SameEnd (f x) (g x)) (xs : List α) :
    SameEnd (xs.mapM f) (xs.mapM g) := by
  induction xs with
  | nil => exact .ok _ _
  | cons x xs ih =>
    rw [List.mapM_cons, List.mapM_cons]
    exact (h x).bind fun _ _ => ih.bind fun _ _ => .ok _ _

/-- If one of them is endless, so is the other. -/
theorem endless_of_endless {r r' : Except ShapeFault α} (h : SameEnd r r')
    (hr : r = .error .endless) : r' = .error .endless := by
  cases h with
  | ok a b => cases hr
  | endless => rfl
  | fault hf hg =>
    cases hr
    exact absurd rfl hf

end SameEnd

namespace PlainTree

/-! ### Reading the objects of a document -/

/-- The part that an entry is, whose value is read in a given way. -/
def entryBy (read : String → NodeId → Except ShapeFault Part) (e : Value × NodeId) :
    Except ShapeFault Part := do
  let key ← keyText e.1
  read key e.2

/-- The element with the entries of a mapping, whose values are read in a given way. -/
def entriesBy (read : String → NodeId → Except ShapeFault Part) (name : String)
    (es : List (Value × NodeId)) : Except ShapeFault PlainTree :=
  (es.mapM (entryBy read)).map fun ps => ps.foldl withPart (empty name)

/-- The element of an object, whose entries are read in a given way. -/
def elementBy (made : Array (Option Made)) (read : String → NodeId → Except ShapeFault Part)
    (name : String) (id : NodeId) : Except ShapeFault PlainTree :=
  match viewOf made id with
  | .leaf c => ofContent name c
  | .sequence _ => .error (.sequenceAt name)
  | .mapping es => entriesBy read name es

/-- The part that an object is as the value of an entry, with at most a number of elements within
one another. -/
def partWithin (made : Array (Option Made)) : Nat → String → NodeId → Except ShapeFault Part
  | 0, _, _ => .error .endless
  | n + 1, name, id =>
    match viewOf made id with
    | .leaf c => readPart name c
    | .sequence items => (items.mapM (elementBy made (partWithin made n) name)).map .below
    | .mapping es => (entriesBy (partWithin made n) name es).map fun t => .below [t]

/-- The root element of a document, whose one entry is read in a given way. -/
def documentBy (made : Array (Option Made))
    (element : String → NodeId → Except ShapeFault PlainTree) (root : NodeId) :
    Except ShapeFault PlainTree :=
  match viewOf made root with
  | .leaf c => ofDocument c
  | .mapping [(k, v)] => do
    let name ← keyText k
    element name v
  | _ => .error .notOneRoot

/-- The root element of a document, with at most a number of elements within one another below
it. -/
def documentWithin (made : Array (Option Made)) (n : Nat) (root : NodeId) :
    Except ShapeFault PlainTree :=
  documentBy made (elementBy made (partWithin made n)) root

variable {made : Array (Option Made)} {id : NodeId} {name : String} {n : Nat}

section Equations

variable {read : String → NodeId → Except ShapeFault Part} {es : List (Value × NodeId)}

/-- Content by itself is read as content. -/
theorem elementBy_of_leaf {c : Content} (h : viewOf made id = .leaf c) :
    elementBy made read name id = ofContent name c := by
  rw [elementBy, h]

/-- A sequence is no element. -/
theorem elementBy_of_sequence {items : List NodeId} (h : viewOf made id = .sequence items) :
    elementBy made read name id = .error (.sequenceAt name) := by
  rw [elementBy, h]

/-- A mapping is read entry by entry. -/
theorem elementBy_of_mapping (h : viewOf made id = .mapping es) :
    elementBy made read name id = entriesBy read name es := by
  rw [elementBy, h]

/-- Content by itself is the part that it is as content. -/
theorem partWithin_of_leaf {c : Content} (h : viewOf made id = .leaf c) :
    partWithin made (n + 1) name id = readPart name c := by
  rw [partWithin, h]

/-- A sequence is an element for each item. -/
theorem partWithin_of_sequence {items : List NodeId} (h : viewOf made id = .sequence items) :
    partWithin made (n + 1) name id =
      (items.mapM (elementBy made (partWithin made n) name)).map .below := by
  rw [partWithin, h]

/-- A mapping is one element. -/
theorem partWithin_of_mapping (h : viewOf made id = .mapping es) :
    partWithin made (n + 1) name id =
      (entriesBy (partWithin made n) name es).map fun t => .below [t] := by
  rw [partWithin, h]

/-- So it is with content. -/
theorem readPart_mapping (es : List (Value × Content)) :
    readPart name (.mapping es) = (ofContent name (.mapping es)).map fun t => .below [t] := rfl

/-- However its entries are read, an object that is no mapping is the element of its content. -/
theorem elementBy_of_not_mapping (h : ∀ es, viewOf made id ≠ .mapping es) (fuel : Nat)
    (around : List NodeId) :
    elementBy made read name id = ofContent name (contentOf made (fuel + 1) around id) := by
  cases hview : viewOf made id with
  | leaf c => rw [elementBy_of_leaf hview, contentOf_of_leaf hview]
  | sequence items =>
    rw [elementBy_of_sequence hview]
    by_cases hmem : id ∈ around
    · rw [contentOf_of_sequence_of_mem hview fuel hmem, ofContent]
    · rw [contentOf_of_sequence hview fuel hmem, ofContent]
  | mapping es => exact absurd hview (h es)

/-- The element of a mapping whose values have given contents. -/
theorem ofContent_entries (content : NodeId → Content) :
    ofContent name (.mapping (es.map fun e => (e.1, content e.2))) =
      entriesBy (fun key v => readPart key (content v)) name es := by
  rw [ofContent_mapping, entriesBy, List.mapM_map]
  rfl

end Equations

/-! ### A larger bound -/

/-- The entries of a mapping end as their parts do. -/
theorem EndsAs.entriesBy {read read' : String → NodeId → Except ShapeFault Part}
    (h : ∀ key v, EndsAs (read key v) (read' key v)) (name : String) (es : List (Value × NodeId)) :
    EndsAs (entriesBy read name es) (PlainTree.entriesBy read' name es) :=
  (EndsAs.mapM fun e _ => (EndsAs.refl (keyText e.1)).bind fun key => h key e.2).map _

/-- So does the element of a node. -/
theorem EndsAs.elementBy {read read' : String → NodeId → Except ShapeFault Part}
    (h : ∀ key v, EndsAs (read key v) (read' key v)) (name : String) (id : NodeId) :
    EndsAs (elementBy made read name id) (PlainTree.elementBy made read' name id) := by
  unfold PlainTree.elementBy
  split
  · exact .refl _
  · exact .refl _
  · exact EndsAs.entriesBy h name _

/-- With a larger bound a reading comes to the same, unless it ran into the smaller one. -/
theorem endsAs_succ (n : Nat) (name : String) (id : NodeId) :
    EndsAs (partWithin made n name id) (partWithin made (n + 1) name id) := by
  induction n generalizing name id with
  | zero => exact .inl rfl
  | succ n ih =>
    cases hview : viewOf made id with
    | leaf c =>
      rw [partWithin_of_leaf hview, partWithin_of_leaf hview]
      exact .refl _
    | sequence items =>
      rw [partWithin_of_sequence hview, partWithin_of_sequence hview]
      exact (EndsAs.mapM fun item _ => EndsAs.elementBy ih name item).map _
    | mapping es =>
      rw [partWithin_of_mapping hview, partWithin_of_mapping hview]
      exact (EndsAs.entriesBy ih name es).map _

/-! ### Endless under any name -/

/-- Content is endless under any name, or under none. -/
theorem sameEnd_ofContent (name name' : String) (c : Content) :
    SameEnd (ofContent name c) (ofContent name' c) := by
  cases c with
  | scalar v =>
    by_cases hv : v = .null
    · rw [hv]
      exact .ok _ _
    · rw [ofContent_scalar name hv, ofContent_scalar name' hv]
      exact (SameEnd.refl _).map _ _
  | sequence items => exact .fault nofun nofun
  | mapping es =>
    rw [ofContent_mapping, ofContent_mapping]
    exact (SameEnd.refl _).map _ _
  | againSequence => exact .fault nofun nofun
  | againMapping => exact .endless

/-- So is a part. -/
theorem sameEnd_readPart (name name' : String) (c : Content) :
    SameEnd (readPart name c) (readPart name' c) := by
  cases c with
  | scalar v =>
    by_cases hv : v = .null
    · rw [hv]
      exact .ok _ _
    · rw [readPart_scalar name hv, readPart_scalar name' hv]
      exact (SameEnd.refl _).map _ _
  | sequence items => exact (SameEnd.mapM (sameEnd_ofContent name name') items).map _ _
  | mapping es => exact (sameEnd_ofContent name name' _).map _ _
  | againSequence => exact .endless
  | againMapping => exact .endless

/-- So is the element of a node. -/
theorem sameEnd_elementBy (read : String → NodeId → Except ShapeFault Part) (name name' : String)
    (id : NodeId) : SameEnd (elementBy made read name id) (elementBy made read name' id) := by
  unfold elementBy
  split
  · exact sameEnd_ofContent name name' _
  · exact .fault nofun nofun
  · exact (SameEnd.refl _).map _ _

/-- So is what is read of a node within a bound. -/
theorem sameEnd_partWithin (n : Nat) (name name' : String) (id : NodeId) :
    SameEnd (partWithin made n name id) (partWithin made n name' id) := by
  cases n with
  | zero => exact .endless
  | succ n =>
    cases hview : viewOf made id with
    | leaf c =>
      rw [partWithin_of_leaf hview, partWithin_of_leaf hview]
      exact sameEnd_readPart name name' c
    | sequence items =>
      rw [partWithin_of_sequence hview, partWithin_of_sequence hview]
      exact (SameEnd.mapM (sameEnd_elementBy _ name name') items).map _ _
    | mapping es =>
      rw [partWithin_of_mapping hview, partWithin_of_mapping hview]
      have hentries : SameEnd (entriesBy (partWithin made n) name es)
          (entriesBy (partWithin made n) name' es) := (SameEnd.refl _).map _ _
      exact hentries.map _ _

/-! ### Places in a document -/

/-- There is room below a place in the content of a document: the depth that is left is more than
the nodes that are not among the collections around it. -/
structure Room (made : Array (Option Made)) (fuel : Nat) (around : List NodeId) : Prop where
  nodup : around.Nodup
  lt : ∀ a ∈ around, a < made.size
  bound : made.size < fuel + around.length

variable {fuel : Nat} {around : List NodeId}

/-- With one more than the nodes there is room at the root. -/
theorem room_nil : Room made (made.size + 1) [] := ⟨List.nodup_nil, nofun, by simp⟩

/-- No more collections are around a place than there are nodes. -/
theorem Room.length_le (h : Room made fuel around) : around.length ≤ made.size := by
  have hsub : around ⊆ List.range made.size := fun a ha => List.mem_range.2 (h.lt a ha)
  simpa using (h.nodup.subperm hsub).length_le

/-- So the bound has not run out. -/
theorem Room.exists_fuel (h : Room made fuel around) : ∃ fuel', fuel = fuel' + 1 := by
  have hlength := h.length_le
  have hbound := h.bound
  exact ⟨fuel - 1, by omega⟩

/-- The place inside of a collection. -/
theorem Room.cons (h : Room made (fuel + 1) around) (hview : ∀ c, viewOf made id ≠ .leaf c)
    (hnot : id ∉ around) : Room made fuel (id :: around) where
  nodup := List.nodup_cons.2 ⟨hnot, h.nodup⟩
  lt := List.forall_mem_cons.2 ⟨lt_size_of_viewOf hview, h.lt⟩
  bound := by
    have hbound := h.bound
    rw [List.length_cons]
    omega

/-- Reading the collections around a place runs into the bound. -/
def Stuck (made : Array (Option Made)) (n : Nat) (around : List NodeId) : Prop :=
  ∀ a ∈ around, ∀ name, partWithin made n name a = .error .endless

/-- What runs into a bound runs into a smaller one. -/
theorem Stuck.pred (h : Stuck made (n + 1) around) : Stuck made n around := fun a ha name =>
  (endsAs_succ n name a).elim id fun heq => heq.trans (h a ha name)

/-- The place inside a collection that runs into the bound. -/
theorem Stuck.cons (h : Stuck made n around) (hid : partWithin made n name id = .error .endless) :
    Stuck made n (id :: around) :=
  List.forall_mem_cons.2
    ⟨fun name' => (sameEnd_partWithin n name name' id).endless_of_endless hid, h⟩

/-! ### Reading ends as the content does -/

/-- Reading with a bound runs into it or comes to what the content of a place comes to, for any
place that is inside of collections whose reading runs into the bound. -/
def Follows (made : Array (Option Made)) (n : Nat) : Prop :=
  ∀ fuel around, Room made fuel around → Stuck made n around →
    ∀ name id, EndsAs (partWithin made n name id) (readPart name (contentOf made fuel around id))

/-- A part that is one element tells the element. -/
theorem below_injective {t t' : Except ShapeFault PlainTree}
    (h : (t.map fun t => Part.below [t]) = t'.map fun t => .below [t]) : t = t' := by
  cases t <;> cases t' <;> cases h <;> rfl

/-- The element of a mapping follows its content. If its own reading runs into the bound, it is one
more collection around the places inside; if not, a larger bound changes nothing. -/
theorem Follows.entriesBy (hfollows : Follows made n) (hroom : Room made (fuel + 1) around)
    (hstuck : Stuck made n around) {es : List (Value × NodeId)}
    (hview : viewOf made id = .mapping es) (hnot : id ∉ around) (name : String) :
    EndsAs (entriesBy (partWithin made n) name es)
      (ofContent name (contentOf made (fuel + 1) around id)) := by
  have hcontent := contentOf_of_mapping hview fuel hnot
  by_cases hend : partWithin made n name id = .error .endless
  · rw [hcontent, ofContent_entries]
    have hinside := hroom.cons (ne_leaf_of_mapping hview) hnot
    exact EndsAs.entriesBy (fun key v => hfollows _ _ hinside (hstuck.cons hend) key v) name es
  · have hsame := (hfollows _ _ hroom hstuck name id).resolve_left hend
    have hnext := (endsAs_succ n name id).resolve_left hend
    rw [partWithin_of_mapping hview] at hnext
    rw [hcontent, readPart_mapping, ← hcontent] at hsame
    exact .inr (below_injective (hnext.symm.trans hsame))

/-- An element follows its content, if the elements around it run into the bound too. -/
theorem Follows.elementBy (hfollows : Follows made n) (hroom : Room made fuel around)
    (hstuck : Stuck made n around)
    (hagain : ∀ a ∈ around, ∀ es, viewOf made a = .mapping es →
      ∀ name, PlainTree.entriesBy (partWithin made n) name es = .error .endless)
    (name : String) (id : NodeId) :
    EndsAs (elementBy made (partWithin made n) name id)
      (ofContent name (contentOf made fuel around id)) := by
  obtain ⟨fuel, rfl⟩ := hroom.exists_fuel
  cases hview : viewOf made id with
  | leaf c => exact .inr (elementBy_of_not_mapping (ne_mapping_of_leaf hview) fuel around)
  | sequence items =>
    exact .inr (elementBy_of_not_mapping (ne_mapping_of_sequence hview) fuel around)
  | mapping es =>
    rw [elementBy_of_mapping hview]
    by_cases hmem : id ∈ around
    · exact .inl (hagain id hmem es hview name)
    · exact hfollows.entriesBy hroom hstuck hview hmem name

/-- The elements around a place run into the bound if they are read as parts with one more. -/
theorem Stuck.entriesBy (h : Stuck made (n + 1) around) {a : NodeId} (ha : a ∈ around)
    {es : List (Value × NodeId)} (hview : viewOf made a = .mapping es) (name : String) :
    PlainTree.entriesBy (partWithin made n) name es = .error .endless := by
  have hpart := h a ha name
  rw [partWithin_of_mapping hview] at hpart
  exact below_injective hpart

/-- Reading a part within any bound follows its content. -/
theorem reading_follows (n : Nat) : Follows made n := by
  induction n with
  | zero => exact fun _ _ _ _ _ _ => .inl rfl
  | succ n ih =>
    intro fuel around hroom hstuck name id
    obtain ⟨fuel, rfl⟩ := hroom.exists_fuel
    by_cases hmem : id ∈ around
    · exact .inl (hstuck id hmem name)
    · cases hview : viewOf made id with
      | leaf c =>
        rw [partWithin_of_leaf hview, contentOf_of_leaf hview]
        exact .refl _
      | mapping es =>
        rw [partWithin_of_mapping hview, contentOf_of_mapping hview fuel hmem, readPart_mapping,
          ← contentOf_of_mapping hview fuel hmem]
        exact (ih.entriesBy hroom hstuck.pred hview hmem name).map _
      | sequence items =>
        have hcontent := contentOf_of_sequence hview fuel hmem
        by_cases hend : partWithin made n name id = .error .endless
        · rw [partWithin_of_sequence hview, hcontent, readPart, List.mapM_map]
          have hinside := hroom.cons (ne_leaf_of_sequence hview) hmem
          refine (EndsAs.mapM fun item _ => ?_).map _
          refine ih.elementBy hinside (hstuck.pred.cons hend) (fun a ha es hes key => ?_) name item
          rcases List.mem_cons.1 ha with rfl | ha
          · rw [hview] at hes
            cases hes
          · exact hstuck.entriesBy ha hes key
        · have hsame := (ih _ _ hroom hstuck.pred name id).resolve_left hend
          have hnext := (endsAs_succ n name id).resolve_left hend
          exact .inr (hnext.symm.trans hsame)

/-! ### A bound that is large enough -/

/-- With a bound of more than the nodes that are not around a place, reading comes to what the
content comes to, unless the content is endless. -/
def Suffices (made : Array (Option Made)) (n : Nat) : Prop :=
  ∀ fuel around, Room made fuel around → made.size < n + around.length →
    ∀ name id, EndsAs (readPart name (contentOf made fuel around id)) (partWithin made n name id)

/-- With such a bound the element of a node comes to what its content comes to. -/
theorem Suffices.elementBy (hsuffices : Suffices made n) (hroom : Room made fuel around)
    (hle : made.size ≤ n + around.length) (name : String) (id : NodeId) :
    EndsAs (ofContent name (contentOf made fuel around id))
      (elementBy made (partWithin made n) name id) := by
  obtain ⟨fuel, rfl⟩ := hroom.exists_fuel
  cases hview : viewOf made id with
  | leaf c => exact .inr (elementBy_of_not_mapping (ne_mapping_of_leaf hview) fuel around).symm
  | sequence items =>
    exact .inr (elementBy_of_not_mapping (ne_mapping_of_sequence hview) fuel around).symm
  | mapping es =>
    by_cases hmem : id ∈ around
    · rw [contentOf_of_mapping_of_mem hview fuel hmem]
      exact .inl rfl
    · rw [elementBy_of_mapping hview, contentOf_of_mapping hview fuel hmem, ofContent_entries]
      have hinside := hroom.cons (ne_leaf_of_mapping hview) hmem
      refine EndsAs.entriesBy (fun key v => hsuffices _ _ hinside ?_ key v) name es
      rw [List.length_cons]
      omega

/-- By induction on the bound, of which each collection on the way takes one. -/
theorem bound_suffices (n : Nat) : Suffices made n := by
  induction n with
  | zero =>
    intro fuel around hroom hlt
    have hlength := hroom.length_le
    omega
  | succ n ih =>
    intro fuel around hroom hlt name id
    have hle : made.size ≤ n + around.length := by omega
    obtain ⟨fuel, rfl⟩ := hroom.exists_fuel
    cases hview : viewOf made id with
    | leaf c =>
      rw [partWithin_of_leaf hview, contentOf_of_leaf hview]
      exact .refl _
    | sequence items =>
      by_cases hmem : id ∈ around
      · rw [contentOf_of_sequence_of_mem hview fuel hmem]
        exact .inl rfl
      · rw [partWithin_of_sequence hview, contentOf_of_sequence hview fuel hmem, readPart,
          List.mapM_map]
        have hinside := hroom.cons (ne_leaf_of_sequence hview) hmem
        refine (EndsAs.mapM fun item _ => ih.elementBy hinside ?_ name item).map _
        rw [List.length_cons]
        omega
    | mapping es =>
      have hread := ih.elementBy hroom hle name id
      by_cases hmem : id ∈ around
      · rw [contentOf_of_mapping_of_mem hview fuel hmem]
        exact .inl rfl
      · rw [elementBy_of_mapping hview, contentOf_of_mapping hview fuel hmem] at hread
        rw [partWithin_of_mapping hview, contentOf_of_mapping hview fuel hmem, readPart_mapping]
        exact hread.map _

/-! ### Documents -/

section Document

variable {root : NodeId}

/-- A document ends as its one element does. -/
theorem EndsAs.documentBy {element element' : String → NodeId → Except ShapeFault PlainTree}
    (h : ∀ k v, viewOf made root = .mapping [(k, v)] → ∀ name, keyText k = .ok name →
      EndsAs (element name v) (element' name v)) :
    EndsAs (documentBy made element root) (PlainTree.documentBy made element' root) := by
  unfold PlainTree.documentBy
  split
  · exact .refl _
  · rename_i k v hview
    cases hname : keyText k with
    | error f => exact .refl _
    | ok name => exact h k v hview name hname
  · exact .refl _

/-- The document of the content of a root, by the contents of what is in the root. -/
theorem ofDocument_contentOf (root : NodeId) :
    ofDocument (contentOf made (made.size + 1) [] root) =
      documentBy made (fun name v => ofContent name (contentOf made made.size [root] v)) root := by
  unfold documentBy
  split
  · rename_i c hview
    rw [contentOf_of_leaf hview]
  · rename_i k v hview
    rw [contentOf_of_mapping hview _ List.not_mem_nil]
    rfl
  · rename_i hleaf hone
    cases hview : viewOf made root with
    | leaf c => exact absurd hview (hleaf c)
    | sequence items => rw [contentOf_of_sequence hview _ List.not_mem_nil, ofDocument]; exact nofun
    | mapping es =>
      rw [contentOf_of_mapping hview _ List.not_mem_nil]
      match es, hview with
      | [], _ => rfl
      | [(k, v)], hview => exact absurd hview (hone k v)
      | _ :: _ :: _, _ => rfl

/-- If the one entry of a root runs into the bound, so does the root, and the element of the entry
follows its content. -/
theorem endsAs_rootElement_of_endless {k : Value} {v : NodeId}
    (hview : viewOf made root = .mapping [(k, v)]) (hname : keyText k = .ok name)
    (hend : partWithin made n name v = .error .endless) :
    EndsAs (elementBy made (partWithin made n) name v)
      (ofContent name (contentOf made made.size [root] v)) := by
  have hroom : Room made made.size [root] :=
    room_nil.cons (ne_leaf_of_mapping hview) List.not_mem_nil
  have hentries : ∀ name', entriesBy (partWithin made n) name' [(k, v)] = .error .endless := by
    intro name'
    rw [entriesBy, List.mapM_cons, entryBy, hname]
    change (partWithin made n name v >>= _).map _ = _
    rw [hend]
    rfl
  have hstuck : Stuck made (n + 1) [root] := by
    intro a ha name'
    obtain rfl := List.mem_singleton.1 ha
    rw [partWithin_of_mapping hview, hentries]
    rfl
  exact (reading_follows n).elementBy hroom hstuck.pred
    (fun a ha es hes key => hstuck.entriesBy ha hes key) name v

/-- The element of the one entry of a root follows its content. -/
theorem endsAs_rootElement {k : Value} {v : NodeId} (hview : viewOf made root = .mapping [(k, v)])
    (hname : keyText k = .ok name) (n : Nat) :
    EndsAs (elementBy made (partWithin made n) name v)
      (ofContent name (contentOf made made.size [root] v)) := by
  have hroom : Room made made.size [root] :=
    room_nil.cons (ne_leaf_of_mapping hview) List.not_mem_nil
  by_cases hmapping : ∀ es, viewOf made v ≠ .mapping es
  · obtain ⟨fuel, hfuel⟩ := hroom.exists_fuel
    rw [hfuel]
    exact .inr (elementBy_of_not_mapping hmapping fuel [root])
  · obtain ⟨es, hes⟩ : ∃ es, viewOf made v = .mapping es := by simpa using hmapping
    induction n with
    | zero => exact endsAs_rootElement_of_endless hview hname rfl
    | succ n ih =>
      by_cases hend : partWithin made (n + 1) name v = .error .endless
      · exact endsAs_rootElement_of_endless hview hname hend
      · -- The element has ended with the smaller bound, and with the larger one it is the same.
        have hended : elementBy made (partWithin made n) name v ≠ .error .endless := by
          intro h
          rw [elementBy_of_mapping hes] at h
          rw [partWithin_of_mapping hes, h] at hend
          exact hend rfl
        have hnext := (EndsAs.elementBy (endsAs_succ n) name v).resolve_left hended
        exact .inr (hnext.symm.trans (ih.resolve_left hended))

/-- Whatever the bound, reading a document runs into it or comes to what its content comes to. -/
theorem endsAs_documentWithin (n : Nat) (root : NodeId) :
    EndsAs (documentWithin made n root) (ofDocument (contentOf made (made.size + 1) [] root)) := by
  rw [ofDocument_contentOf]
  exact EndsAs.documentBy fun k v hview name hname => endsAs_rootElement hview hname n

/-- With the number of nodes for a bound, reading a document comes to what its content comes to. -/
theorem documentWithin_eq (hn : made.size ≤ n) (root : NodeId) :
    documentWithin made n root = ofDocument (contentOf made (made.size + 1) [] root) := by
  refine (endsAs_documentWithin n root).antisymm ?_
  rw [ofDocument_contentOf]
  refine EndsAs.documentBy fun k v hview name _ => ?_
  have hroom : Room made made.size [root] :=
    room_nil.cons (ne_leaf_of_mapping hview) List.not_mem_nil
  exact (bound_suffices n).elementBy hroom (by simp; omega) name v

end Document

end PlainTree
end ConfigAssembly
