import Mathlib.Logic.Relation
import ConfigAssembly.Document.Load
import ConfigAssembly.Proofs.Document.Bounded
import ConfigAssembly.Proofs.Document.Elements

/-!
# Documents that hold themselves

An alias inside of what it stands for makes an object that holds itself. If no such object is
reached from the root of a document, its content is finite (`Yaml.finite_of_acyclicFrom`), and
finite content is not endless (`PlainTree.ofDocument_ne_endless`); content that is read is finite,
and then no such object is reached (`Yaml.acyclicFrom_of_finite`). `PlainTree.readDocument_ends`
puts this together with what reading with a bound comes to, and `not_forall_loaded_or_refused` shows
a document for which reading does not end.
-/

namespace ConfigAssembly

open Relation Yaml

/-! ### Objects that hold themselves -/

namespace Yaml

open PlainTree

variable {made : Array (Option Made)} {id : NodeId} {fuel : Nat} {around : List NodeId}

/-- An object holds another one, as an item or as the value of an entry. -/
inductive Refers (made : Array (Option Made)) : NodeId → NodeId → Prop where
  | item {a b : NodeId} {items : List NodeId} (h : viewOf made a = .sequence items)
    (hb : b ∈ items) : Refers made a b
  | entry {a : NodeId} {e : Value × NodeId} {es : List (Value × NodeId)}
    (h : viewOf made a = .mapping es) (he : e ∈ es) : Refers made a e.2

/-- No object that is reached from a given one holds itself. -/
def AcyclicFrom (made : Array (Option Made)) (id : NodeId) : Prop :=
  ∀ a, ReflTransGen (Refers made) id a → ¬ TransGen (Refers made) a a

/-- What refers to anything is a collection. -/
theorem Refers.not_leaf {a b : NodeId} (h : Refers made a b) (c : Content) :
    viewOf made a ≠ .leaf c := by
  cases h with
  | item hview _ | entry hview _ =>
    rw [hview]
    exact nofun

/-- What an object without cycles refers to is without cycles. -/
theorem AcyclicFrom.next {a b : NodeId} (h : AcyclicFrom made a) (hab : Refers made a b) :
    AcyclicFrom made b := fun c hc => h c (.head hab hc)

/-- What content sees of an object is finite by itself, if inclusions are. -/
theorem finite_of_leaf {size : Nat} (h : Sound Content.Finite size made) {c : Content}
    (hview : viewOf made id = .leaf c) : c.Finite := by
  unfold viewOf at hview
  split at hview
  · rename_i c' hmade
    obtain rfl := View.leaf.inj hview
    exact h.whole id c' hmade
  · cases hview
  · cases hview
  · obtain rfl := View.leaf.inj hview
    exact Content.everywhere_scalar.2 rfl
  · obtain rfl := View.leaf.inj hview
    refine Content.everywhere_sequence.2 ⟨rfl, List.forall_mem_map.2 fun _ _ => ?_⟩
    exact Content.everywhere_scalar.2 rfl
  · obtain rfl := View.leaf.inj hview
    exact Content.everywhere_scalar.2 rfl

/-- The content of an object from which none is reached that holds itself is finite. -/
theorem finite_of_acyclicFrom (hleaf : ∀ id c, viewOf made id = .leaf c → c.Finite)
    (hroom : Room made fuel around) (haround : ∀ a ∈ around, TransGen (Refers made) a id)
    (h : AcyclicFrom made id) : (contentOf made fuel around id).Finite := by
  induction fuel generalizing around id with
  | zero =>
    obtain ⟨fuel, hfuel⟩ := hroom.exists_fuel
    cases hfuel
  | succ fuel ih =>
    have hnot : id ∉ around := fun hmem => h id .refl (haround id hmem)
    have hbelow : ∀ b, Refers made id b → (contentOf made fuel (id :: around) b).Finite := by
      intro b hb
      refine ih (hroom.cons hb.not_leaf hnot) (List.forall_mem_cons.2 ⟨.single hb, ?_⟩) (h.next hb)
      exact fun a ha => (haround a ha).tail hb
    cases hview : viewOf made id with
    | leaf c =>
      rw [contentOf_of_leaf hview]
      exact hleaf id c hview
    | sequence items =>
      rw [contentOf_of_sequence hview fuel hnot]
      refine Content.everywhere_sequence.2 ⟨rfl, List.forall_mem_map.2 fun b hb => ?_⟩
      exact hbelow b (.item hview hb)
    | mapping es =>
      rw [contentOf_of_mapping hview fuel hnot]
      refine Content.everywhere_mapping.2 ⟨rfl, List.forall_mem_map.2 fun e he => ?_⟩
      exact hbelow e.2 (.entry hview he)

/-- The content of an object at some place is finite. -/
def FiniteAt (made : Array (Option Made)) (around : List NodeId) (id : NodeId) : Prop :=
  ∃ fuel, Room made fuel around ∧ (contentOf made fuel around id).Finite

namespace FiniteAt

/-- What is held by an object whose content is finite is not around it, and has finite content
too. -/
theorem next {a b : NodeId} (h : FiniteAt made around a) (hab : Refers made a b) :
    a ∉ around ∧ FiniteAt made (a :: around) b := by
  obtain ⟨fuel, hroom, hfinite⟩ := h
  obtain ⟨fuel, rfl⟩ := hroom.exists_fuel
  cases hab with
  | item hview hb =>
    have hnot : a ∉ around := by
      intro hmem
      rw [contentOf_of_sequence_of_mem hview fuel hmem] at hfinite
      cases hfinite.self
    refine ⟨hnot, fuel, hroom.cons (ne_leaf_of_sequence hview) hnot, ?_⟩
    rw [contentOf_of_sequence hview fuel hnot] at hfinite
    exact (Content.everywhere_sequence.1 hfinite).2 _ (List.mem_map_of_mem hb)
  | entry hview he =>
    have hnot : a ∉ around := by
      intro hmem
      rw [contentOf_of_mapping_of_mem hview fuel hmem] at hfinite
      cases hfinite.self
    refine ⟨hnot, fuel, hroom.cons (ne_leaf_of_mapping hview) hnot, ?_⟩
    rw [contentOf_of_mapping hview fuel hnot] at hfinite
    exact (Content.everywhere_mapping.1 hfinite).2 _ (List.mem_map_of_mem he)

/-- So has every object that is reached from it, at a place inside of all that are around it. -/
theorem reach {a b : NodeId} (h : FiniteAt made around a) (hab : ReflTransGen (Refers made) a b) :
    ∃ around', around ⊆ around' ∧ FiniteAt made around' b := by
  induction hab with
  | refl => exact ⟨around, List.Subset.refl _, h⟩
  | @tail b c _ hbc ih =>
    obtain ⟨around', hsub, hfinite⟩ := ih
    exact ⟨b :: around', List.subset_cons_of_subset b hsub, (hfinite.next hbc).2⟩

/-- No object that is reached from it holds itself. -/
theorem acyclicFrom (h : FiniteAt made around id) : AcyclicFrom made id := by
  intro a hida hcycle
  obtain ⟨around', _, ha⟩ := h.reach hida
  obtain ⟨b, hab, hba⟩ := TransGen.head'_iff.1 hcycle
  obtain ⟨around'', hsub, ha'⟩ := (ha.next hab).2.reach hba
  exact (ha'.next hab).1 (hsub List.mem_cons_self)

end FiniteAt

/-- No object that is reached from the root of finite content holds itself. -/
theorem acyclicFrom_of_finite {root : NodeId}
    (h : (contentOf made (made.size + 1) [] root).Finite) : AcyclicFrom made root :=
  FiniteAt.acyclicFrom ⟨made.size + 1, room_nil, h⟩

end Yaml

/-! ### Reading ends unless objects hold themselves -/

namespace PlainTree

/-- A document whose content is finite is not endless. -/
theorem ofDocument_ne_endless {c : Content} (h : c.Finite) : ofDocument c ≠ .error .endless := by
  unfold ofDocument
  split
  · rename_i k c
    cases hname : keyText k with
    | error f =>
      obtain ⟨_, rfl⟩ := keyText_eq_error_iff.1 hname
      exact nofun
    | ok name =>
      intro hc
      have hfinite : c.Finite := (Content.everywhere_mapping.1 h).2 _ List.mem_cons_self
      rcases fault_of_ofContent (f := .endless) hc hfinite with ⟨⟨_, hf⟩, _⟩ | ⟨hf, _⟩ <;> cases hf
  · exact nofun

/-- The content of a document that is read is finite. -/
theorem finite_of_ofDocument {c : Content} {t : PlainTree} (h : ofDocument c = .ok t) :
    c.Finite := by
  unfold ofDocument at h
  split at h
  · rename_i k c
    cases hname : keyText k with
    | error f =>
      rw [hname] at h
      cases h
    | ok name =>
      rw [hname] at h
      refine Content.everywhere_mapping.2 ⟨rfl, fun e he => ?_⟩
      obtain rfl := List.mem_singleton.1 he
      exact finite_of_ofContent (show ofContent name c = .ok t from h)
  · cases h

/-- Reading the elements of a document, whose objects may hold themselves, runs into its bound on
the elements within one another or comes to what the content comes to, and it comes to this if the
bound is at least the number of nodes. If no object that is reached from the root holds itself, and
the content of inclusions is finite, the content is not endless, so that reading ends with the root
element or with a fault of the content. If one does, no root element is read: reading ends with a
fault before, or it does not end. -/
theorem readDocument_ends {ε : Type} {s : Surroundings ε} {text : String}
    {made : Array (Option Made)} {root : NodeId}
    (h : objectsOf s text = .ok (some (made, root))) :
    ∃ c, readDocument s text = .ok c ∧
      (∀ n, documentWithin made n root = .error .endless ∨
        documentWithin made n root = ofDocument c) ∧
      (∀ n, made.size ≤ n → documentWithin made n root = ofDocument c) ∧
      ((∀ name c, s.included name = .ok c → c.Finite) → AcyclicFrom made root →
        ofDocument c ≠ .error .endless) ∧
      (¬ AcyclicFrom made root → ∀ t, ofDocument c ≠ .ok t) := by
  obtain ⟨_, hread⟩ :=
    sound_of_objectsOf (P := fun _ => True) h (fun _ _ _ => trivial) fun _ => trivial
  refine ⟨_, hread, fun n => endsAs_documentWithin n root, fun n hn => documentWithin_eq hn root,
    fun hincluded hacyclic => ?_, fun hcycle t ht => ?_⟩
  · obtain ⟨hsound, _⟩ :=
      sound_of_objectsOf h hincluded fun _ => Content.everywhere_scalar.2 rfl
    exact ofDocument_ne_endless (finite_of_acyclicFrom (fun _ _ => finite_of_leaf hsound) room_nil
      nofun hacyclic)
  · exact hcycle (acyclicFrom_of_finite (finite_of_ofDocument ht))

/-- Surroundings of a document that includes nothing. -/
private def alone : Surroundings Yaml.Fault := ⟨fun _ => .error .malformed, id⟩

/-- An alias inside of the mapping that it stands for. -/
private def ring : String := "A: &a\n  b: *a\n"

/-- Two aliases for one mapping that does not hold itself. -/
private def shared : String := "A:\n  x: &x\n    v: w\n  y: *x\n  z: *x\n"

private def hasObjects (text : String) : Bool :=
  match objectsOf alone text with
  | .ok (some _) => true
  | _ => false

/-- What the elements of a content come to: whether there are some, or reading them is endless. -/
private def comesTo {ε : Type} (end? : Except ShapeFault PlainTree → Bool) (r : Except ε Content) :
    Bool :=
  match r with
  | .ok c => end? (ofDocument c)
  | .error _ => false

private def isEndless : Except ShapeFault PlainTree → Bool
  | .error f => f == .endless
  | .ok _ => false

private def isRead : Except ShapeFault PlainTree → Bool
  | .error _ => false
  | .ok _ => true

/-- The check is for endless readings only. -/
private theorem eq_of_isEndless {r : Except ShapeFault PlainTree} (h : isEndless r = true) :
    r = .error .endless := by
  cases r with
  | ok t => cases h
  | error f => rw [eq_of_beq h]

/-- The first document can be read as far as its objects. -/
private theorem hasObjects_ring : hasObjects ring = true := by decide +kernel

/-- So can the second. -/
private theorem hasObjects_shared : hasObjects shared = true := by decide +kernel

/-- The objects that the check finds. -/
private theorem exists_objects {text : String} (h : hasObjects text = true) :
    ∃ made root, objectsOf alone text = .ok (some (made, root)) := by
  unfold hasObjects at h
  split at h
  · rename_i objects hobjects
    exact ⟨objects.1, objects.2, hobjects⟩
  · cases h

/-- However large the bound, reading a mapping that holds itself runs into it; a mapping that
several aliases stand for is read. -/
theorem readDocument_ends_ring :
    (∃ made root, objectsOf alone ring = .ok (some (made, root)) ∧ ¬ AcyclicFrom made root ∧
      ∀ n, documentWithin made n root = .error .endless) ∧
    ∃ made root t, objectsOf alone shared = .ok (some (made, root)) ∧ AcyclicFrom made root ∧
      documentWithin made made.size root = .ok t := by
  refine ⟨?_, ?_⟩
  · obtain ⟨made, root, hobjects⟩ := exists_objects hasObjects_ring
    obtain ⟨c, hread, hends, _, hacyclic, _⟩ := readDocument_ends hobjects
    have hring : comesTo isEndless (readDocument alone ring) = true := by decide +kernel
    rw [hread] at hring
    have hendless := eq_of_isEndless hring
    exact ⟨made, root, hobjects, fun h => hacyclic nofun h hendless,
      fun n => (hends n).elim id fun h => h.trans hendless⟩
  · obtain ⟨made, root, hobjects⟩ := exists_objects hasObjects_shared
    obtain ⟨c, hread, _, hbound, _, hcycle⟩ := readDocument_ends hobjects
    have hshared : comesTo isRead (readDocument alone shared) = true := by decide +kernel
    rw [hread] at hshared
    cases ht : ofDocument c with
    | error f =>
      rw [comesTo, ht] at hshared
      cases hshared
    | ok t =>
      refine ⟨made, root, t, hobjects, ?_, (hbound made.size (Nat.le_refl _)).trans ht⟩
      by_contra hnot
      exact hcycle hnot t ht

/-- An error that refuses a document: a file is missing, files include each other, or the content
has the wrong shape. -/
def Refuses : LoadError → Prop
  | .notFound _ _ | .cycle _ | .shape _ (.sequenceAt _) | .shape _ .notOneRoot => True
  | _ => False

/-- Not every document that has content is loaded or refused. -/
theorem not_forall_loaded_or_refused :
    ¬ ∀ (fs : Files) (text : String) (c : Content),
      contentOfText fs [] fs.here text = .ok c →
      (∃ t, loadText fs text = .ok t) ∨ ∃ e, loadText fs text = .error e ∧ Refuses e := by
  intro h
  have hring : comesTo isEndless (contentOfText ⟨[], [], []⟩ [] ⟨false, []⟩ ring) = true := by
    decide +kernel
  cases hc : contentOfText ⟨[], [], []⟩ [] ⟨false, []⟩ ring with
  | error e =>
    rw [hc] at hring
    cases hring
  | ok c =>
    rw [hc] at hring
    have hload : loadText ⟨[], [], []⟩ ring = .error (.shape textSource .endless) := by
      change (contentOfText ⟨[], [], []⟩ [] ⟨false, []⟩ ring).bind _ = _
      rw [hc]
      have hendless := eq_of_isEndless hring
      rw [← LinkedTree.ofDocument_eq, map_eq_error_iff] at hendless
      change (LinkedTree.ofDocument c).mapError _ = _
      rw [hendless]
      rfl
    rcases h ⟨[], [], []⟩ ring c hc with ⟨t, ht⟩ | ⟨e, he, hrefuses⟩
    · rw [hload] at ht
      cases ht
    · rw [hload] at he
      cases he
      exact hrefuses

end PlainTree
end ConfigAssembly
