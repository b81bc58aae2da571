import ConfigAssembly.Yaml.Document

/-!
# The objects of a document

What a document makes of its nodes, before content is read from them: `objectsOf` are these objects,
which may hold themselves, and `readDocument_eq` says that the content is the one of the root.
`View` is what content sees of an object, either content by itself or the objects that a collection
holds (`contentOf_succ`).

Making keeps the number of nodes, and notes only content that scalars and inclusions stand for
(`sound_of_objectsOf`): every step of a `Maker` does (`Maker.Keeps`).
-/

namespace ConfigAssembly.Yaml

variable {ε : Type}

/-! ### What content sees of an object -/

/-- What content sees of an object. -/
inductive View where
  /-- Content by itself. -/
  | leaf (c : Content)
  /-- The objects that a sequence holds. -/
  | sequence (items : List NodeId)
  /-- The objects that a mapping holds, with the values of their keys. -/
  | mapping (entries : List (Value × NodeId))

/-- What content sees of the object made of a node. -/
def viewOf (made : Array (Option Made)) (id : NodeId) : View :=
  match made[id]? with
  | some (some (.whole c)) => .leaf c
  | some (some (.collection (.sequence items))) => .sequence items
  | some (some (.collection (.mapping es))) => .mapping (es.map fun (k, v) => (k.value, v))
  | some (some (.collection (.set es))) => .leaf (.scalar (.set (es.keys.map (·.value))))
  | some (some (.collection (.pairs es))) =>
    .leaf (.sequence (es.zipIdx.map fun ((k, v), i) =>
      let inside := valueOf made (made.size + 2) [.pair id i]
      .scalar (.tuple [inside k, inside v])))
  | _ => .leaf (.scalar .null)

variable {made : Array (Option Made)} {id : NodeId}

/-- A sequence is not content by itself. -/
theorem ne_leaf_of_sequence {items : List NodeId} (h : viewOf made id = .sequence items)
    (c : Content) : viewOf made id ≠ .leaf c := by
  simp [h]

/-- A mapping is not content by itself. -/
theorem ne_leaf_of_mapping {es : List (Value × NodeId)} (h : viewOf made id = .mapping es)
    (c : Content) : viewOf made id ≠ .leaf c := by
  simp [h]

/-- What is not a mapping has no entries. -/
theorem ne_mapping_of_leaf {c : Content} (h : viewOf made id = .leaf c)
    (es : List (Value × NodeId)) : viewOf made id ≠ .mapping es := by
  simp [h]

/-- A sequence has no entries. -/
theorem ne_mapping_of_sequence {items : List NodeId} (h : viewOf made id = .sequence items)
    (es : List (Value × NodeId)) : viewOf made id ≠ .mapping es := by
  simp [h]

/-- Content by itself is itself; a collection that is among those around it is cut off, and any
other one holds the content of its objects, with the collection itself around them. -/
theorem contentOf_succ (fuel : Nat) (around : List NodeId) :
    contentOf made (fuel + 1) around id =
      match viewOf made id with
      | .leaf c => c
      | .sequence items =>
        if around.contains id then .againSequence
        else .sequence (items.map (contentOf made fuel (id :: around)))
      | .mapping es =>
        if around.contains id then .againMapping
        else .mapping (es.map fun e => (e.1, contentOf made fuel (id :: around) e.2)) := by
  rw [contentOf, viewOf]
  rcases made[id]? with _ | _ | c | body
  · rfl
  · rfl
  · rfl
  · cases body with
    | mapping es =>
      dsimp only
      rw [List.map_map]
      rfl
    | _ => rfl

/-- Content by itself. -/
theorem contentOf_of_leaf {c : Content} (h : viewOf made id = .leaf c) (fuel : Nat)
    (around : List NodeId) : contentOf made (fuel + 1) around id = c := by
  rw [contentOf_succ, h]

/-- A sequence, inside of which it is around its items. -/
theorem contentOf_of_sequence {items : List NodeId} (h : viewOf made id = .sequence items)
    (fuel : Nat) {around : List NodeId} (hnot : id ∉ around) :
    contentOf made (fuel + 1) around id =
      .sequence (items.map (contentOf made fuel (id :: around))) := by
  rw [contentOf_succ, h]
  exact if_neg (by simpa using hnot)

/-- A mapping, inside of which it is around its values. -/
theorem contentOf_of_mapping {es : List (Value × NodeId)} (h : viewOf made id = .mapping es)
    (fuel : Nat) {around : List NodeId} (hnot : id ∉ around) :
    contentOf made (fuel + 1) around id =
      .mapping (es.map fun e => (e.1, contentOf made fuel (id :: around) e.2)) := by
  rw [contentOf_succ, h]
  exact if_neg (by simpa using hnot)

/-- A sequence inside itself is cut off. -/
theorem contentOf_of_sequence_of_mem {items : List NodeId} (h : viewOf made id = .sequence items)
    (fuel : Nat) {around : List NodeId} (hmem : id ∈ around) :
    contentOf made (fuel + 1) around id = .againSequence := by
  rw [contentOf_succ, h]
  exact if_pos (by simpa using hmem)

/-- So is a mapping. -/
theorem contentOf_of_mapping_of_mem {es : List (Value × NodeId)} (h : viewOf made id = .mapping es)
    (fuel : Nat) {around : List NodeId} (hmem : id ∈ around) :
    contentOf made (fuel + 1) around id = .againMapping := by
  rw [contentOf_succ, h]
  exact if_pos (by simpa using hmem)

/-- An object that is a collection of others is that of a node of the document. -/
theorem lt_size_of_viewOf (h : ∀ c, viewOf made id ≠ .leaf c) : id < made.size := by
  refine Nat.lt_of_not_le fun hge => h (.scalar .null) ?_
  rw [viewOf, Array.getElem?_eq_none hge]

/-! ### Steps that keep the objects sound -/

/-- Objects for a number of nodes, all of whose contents by themselves meet a condition. -/
structure Sound (P : Content → Prop) (size : Nat) (made : Array (Option Made)) : Prop where
  size_eq : made.size = size
  whole : ∀ (id : NodeId) (c : Content), made[id]? = some (some (Made.whole c)) → P c

/-- What may be noted at a node. -/
def Made.Meets (P : Content → Prop) : Made → Prop
  | .whole c => P c
  | .collection _ => True

/-- Noting an object that meets the property. -/
theorem Sound.set {P : Content → Prop} {size : Nat} (h : Sound P size made) (id : NodeId) {m : Made}
    (hm : m.Meets P) : Sound P size (made.setIfInBounds id (some m)) where
  size_eq := by rw [Array.size_setIfInBounds, h.size_eq]
  whole i c hi := by
    rw [Array.getElem?_setIfInBounds] at hi
    split at hi
    · split at hi
      · cases hi
        exact hm
      · cases hi
    · exact h.whole i c hi

namespace Maker

variable {α β : Type} {P : Content → Prop} {size : Nat} {s : Surroundings ε}

/-- A step keeps the objects sound. -/
def Keeps (P : Content → Prop) (size : Nat) (m : Maker ε α) : Prop :=
  ∀ w a w', Sound P size w.made → m.run w = .ok (a, w') → Sound P size w'.made

/-- A step that does nothing. -/
theorem keeps_pure (a : α) : Keeps P size (pure a : Maker ε α) := by
  intro w _ _ hw h
  cases h
  exact hw

/-- Steps one after the other. -/
theorem Keeps.bind {m : Maker ε α} {f : α → Maker ε β} (hm : Keeps P size m)
    (hf : ∀ a, Keeps P size (f a)) : Keeps P size (m >>= f) := by
  intro w b w' hw h
  rw [StateT.run_bind] at h
  cases hrun : m.run w with
  | error e =>
    rw [hrun] at h
    cases h
  | ok r =>
    rw [hrun] at h
    exact hf r.1 r.2 b w' (hm w r.1 r.2 hw hrun) h

/-- A step with something made of its result. -/
theorem Keeps.map {m : Maker ε α} (hm : Keeps P size m) (f : α → β) : Keeps P size (f <$> m) := by
  rw [map_eq_pure_bind]
  exact hm.bind fun a => keeps_pure (f a)

/-- The state that a step goes on with has sound objects. -/
theorem keeps_get_bind {f : Making → Maker ε β}
    (hf : ∀ w, Sound P size w.made → Keeps P size (f w)) : Keeps P size (get >>= f) :=
  fun w b w' hw h => hf w hw w b w' hw h

/-- Putting what is sound in the place of what was made. -/
theorem keeps_set {w : Making} (h : Sound P size w.made) :
    Keeps P size (set w : Maker ε PUnit) := by
  intro _ _ _ _ hrun
  cases hrun
  exact h

/-- A failure. -/
theorem keeps_fail (f : Fault) : Keeps P size (fail s f : Maker ε α) := by
  intro w _ _ _ h
  cases h

/-- A result that is there already. -/
theorem keeps_lift (r : Except Fault α) : Keeps P size (lift s r) := by
  cases r with
  | error f => exact keeps_fail f
  | ok a => exact keeps_pure a

/-- A change of what was made to what is sound. -/
theorem keeps_modify {f : Making → Making}
    (h : ∀ w, Sound P size w.made → Sound P size (f w).made) :
    Keeps P size (modify f : Maker ε PUnit) := by
  intro w _ _ hw hrun
  cases hrun
  exact h w hw

/-- Noting an object that meets the property. -/
theorem keeps_note (id : NodeId) {m : Made} (hm : m.Meets P) :
    Keeps P size (note id m : Maker ε Made) :=
  (keeps_modify fun _ hw => hw.set id hm).bind fun _ => keeps_pure m

/-- Noting an empty collection. -/
theorem keeps_noteEmpty (id : NodeId) (b : Body) :
    Keeps P size (noteEmpty id b : Maker ε Made) := by
  refine Keeps.bind (keeps_modify ?_) fun _ => keeps_note id trivial
  exact fun _ hw => hw

/-- Reading the text of a node. -/
theorem keeps_textOf (id : NodeId) : Keeps P size (textOf s id) :=
  keeps_get_bind fun _ _ => keeps_lift _

/-- Steps for the items of a list. -/
theorem Keeps.mapM {f : α → Maker ε β} (hf : ∀ a, Keeps P size (f a)) (xs : List α) :
    Keeps P size (xs.mapM f) := by
  induction xs with
  | nil => exact keeps_pure []
  | cons x xs ih =>
    rw [List.mapM_cons]
    exact (hf x).bind fun _ => ih.bind fun _ => keeps_pure _

/-- Steps for the items of a list, each with what came of those before. -/
theorem Keeps.foldlM {f : β → α → Maker ε β} (hf : ∀ b a, Keeps P size (f b a)) (xs : List α)
    (b : β) : Keeps P size (xs.foldlM f b) := by
  induction xs generalizing b with
  | nil => exact keeps_pure b
  | cons x xs ih =>
    rw [List.foldlM_cons]
    exact (hf b x).bind ih

/-- Steps for the items of a list whose results do not matter. -/
theorem Keeps.each {f : α → Maker ε β} (hf : ∀ a, Keeps P size (f a)) (xs : List α) :
    Keeps P size (forIn xs PUnit.unit fun x _ => do
      let _ ← f x
      pure (.yield PUnit.unit)) := by
  induction xs with
  | nil => exact keeps_pure _
  | cons x xs ih =>
    rw [List.forIn_cons, bind_assoc]
    refine (hf x).bind fun _ => ?_
    rw [pure_bind]
    exact ih

section Make

variable (hincluded : ∀ name c, s.included name = .ok c → P c) (hscalar : ∀ v, P (.scalar v))
include hincluded

/-- An inclusion. -/
theorem keeps_inclusion (id : NodeId) (name : String) :
    Keeps P size (do
      let c ← StateT.lift (s.included name)
      note id (.whole c) : Maker ε Made) := by
  intro w m w' hw h
  cases hname : s.included name with
  | error e =>
    rw [hname] at h
    cases h
  | ok c =>
    rw [hname] at h
    exact keeps_note id (m := .whole c) (hincluded name c hname) w m w' hw h

include hscalar

/-- Making a node notes the content that a scalar or an inclusion stands for, or a collection. -/
theorem keeps_make (id : NodeId) : Keeps P size (make s id) := by
  have hvalue : ∀ t : Tag, Keeps P size (do
      let v ← lift s (t.scalarValue (← textOf s id))
      note id (.whole (.scalar v))) := fun t =>
    (keeps_textOf id).bind fun text => (keeps_lift _).bind fun v =>
      keeps_note id (show (Made.whole (.scalar v)).Meets P from hscalar v)
  unfold make
  refine keeps_get_bind fun w hw => ?_
  split
  · exact keeps_pure _
  · refine keeps_get_bind fun w hw => ?_
    cases w.graph.tag? id with
    | none => exact keeps_fail _
    | some t =>
      cases t with
      | sequence | mapping | set | pairs => exact keeps_noteEmpty id _
      | inclusion => exact (keeps_textOf id).bind (keeps_inclusion hincluded id)
      | _ => exact hvalue _

/-- Making the entries of a mapping. -/
theorem keeps_makeEntries (id : NodeId) : Keeps P size (makeEntries s id) := by
  unfold makeEntries
  refine keeps_get_bind fun w hw => (keeps_lift _).bind fun r => ?_
  obtain ⟨es, g⟩ := r
  refine Keeps.bind (keeps_set hw) fun _ => Keeps.foldlM (fun made e => ?_) es []
  refine (keeps_make hincluded hscalar e.1).bind fun m => ?_
  split
  · exact keeps_fail _
  · exact (keeps_make hincluded hscalar e.2).bind fun _ => keeps_pure _

/-- Making a pair. -/
theorem keeps_makePair (id : NodeId) : Keeps P size (makePair s id) := by
  unfold makePair
  refine keeps_get_bind fun w _ => ?_
  split
  · exact (keeps_make hincluded hscalar _).bind fun _ =>
      (keeps_make hincluded hscalar _).bind fun _ => keeps_pure _
  · exact keeps_fail _

omit hincluded hscalar in
/-- The body that a collection is filled with is noted. -/
theorem keeps_noteBody (id : NodeId) {m : Maker ε Body} (hm : Keeps P size m) :
    Keeps P size (do
      let body ← m
      let _ ← note id (.collection body)
      pure ()) :=
  hm.bind fun _ => Keeps.bind (keeps_note id trivial) fun _ => keeps_pure _

/-- Filling a collection. -/
theorem keeps_fill (id : NodeId) : Keeps P size (fill s id) := by
  unfold fill
  refine keeps_get_bind fun w _ => ?_
  have hfail : Keeps P size (fail s .malformed : Maker ε Body) := keeps_fail _
  cases w.graph[id]? with
  | none => exact keeps_noteBody id hfail
  | some n =>
    obtain ⟨tag, shape⟩ := n
    cases tag with
    | sequence =>
      cases shape with
      | sequence items =>
        exact (Keeps.each (keeps_make hincluded hscalar) items).bind fun _ =>
          keeps_noteBody id (keeps_pure _)
      | _ => exact keeps_noteBody id hfail
    | mapping | set =>
      exact keeps_noteBody id ((keeps_makeEntries hincluded hscalar id).map _)
    | pairs =>
      cases shape with
      | sequence items =>
        exact keeps_noteBody id ((Keeps.mapM (keeps_makePair hincluded hscalar) items).map _)
      | _ => exact keeps_noteBody id hfail
    | _ => exact keeps_noteBody id hfail

/-- Filling all collections that wait for it. -/
theorem keeps_fillAll (fuel : Nat) : Keeps P size (fillAll s fuel) := by
  induction fuel with
  | zero => exact keeps_pure _
  | succ fuel ih =>
    unfold fillAll
    refine keeps_get_bind fun w _ => ?_
    split
    · exact keeps_pure _
    · refine Keeps.bind (keeps_modify ?_) fun _ => (keeps_fill hincluded hscalar _).bind fun _ => ih
      exact fun _ hw => hw

end Make
end Maker

/-! ### The objects of a text -/

/-- The objects made of the nodes of a text and the number of the root, if the text has a
document. -/
def objectsOf (s : Surroundings ε) (text : String) :
    Except ε (Option (Array (Option Made) × NodeId)) :=
  match readGraph text with
  | .error f => .error (s.fault f)
  | .ok (_, none) => .ok none
  | .ok (g, some root) =>
    let made : Maker ε Unit := do
      let _ ← Maker.make s root
      Maker.fillAll s (g.size + 1)
    (made.run ⟨g, Array.replicate g.size none, []⟩).map fun (_, w) => some (w.made, root)

variable {s : Surroundings ε} {text : String} {root : NodeId}

/-- The objects of a document, with the size of its graph, which bounds the depth that content is
read to. -/
theorem sound_of_objectsOf {P : Content → Prop} (h : objectsOf s text = .ok (some (made, root)))
    (hincluded : ∀ name c, s.included name = .ok c → P c) (hscalar : ∀ v, P (.scalar v)) :
    Sound P made.size made ∧
      readDocument s text = .ok (contentOf made (made.size + 1) [] root) := by
  unfold objectsOf at h
  split at h
  · cases h
  · cases h
  · rename_i g r hgraph
    have hstart : Sound P g.size (Array.replicate g.size none) := by
      refine ⟨Array.size_replicate, fun id c hc => ?_⟩
      rw [Array.getElem?_replicate] at hc
      split at hc <;> cases hc
    have hkeeps : Maker.Keeps P g.size (do
        let _ ← Maker.make s r
        Maker.fillAll s (g.size + 1)) :=
      (Maker.keeps_make hincluded hscalar r).bind fun _ =>
        Maker.keeps_fillAll hincluded hscalar (g.size + 1)
    dsimp only at h
    generalize hrun : StateT.run _ _ = run at h
    cases run with
    | error e => cases h
    | ok result =>
      obtain ⟨u, w⟩ := result
      cases h
      have hsound := hkeeps _ u w hstart hrun
      refine ⟨⟨rfl, hsound.whole⟩, ?_⟩
      rw [readDocument, hgraph]
      dsimp only
      rw [hrun, hsound.size_eq]
      rfl

end ConfigAssembly.Yaml
