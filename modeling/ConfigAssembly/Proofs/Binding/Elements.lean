import ConfigAssembly.Proofs.Binding.Visits
import ConfigAssembly.Proofs.Taken.Precedence
import ConfigAssembly.Proofs.Taken.Reserved

/-!
# Element inputs of collections and of optional collections

An element input delivers instances of the children that its names find: all of them if its type is
a collection, and else the first one (`Visitor.visit_ofElement_of_matching`). An optional collection
is no collection: such an input takes and delivers the first child only and leaves the others where
they are, while every other built-in visitor makes no difference between a type and the optional of
it (`Visitor.visit_optional`). `Visitor.visit_ofElement_optional` compares the two element inputs.
-/

namespace ConfigAssembly

open Taken Text

namespace Visit

/-- The names that the element is searched with, the aliases first. -/
def names (v : Visit) : List String := v.aliases ++ v.marker.name.toList

/-- The free children that the names find, with their positions. -/
def matching (v : Visit) (c : Taken) : List (Node × Nat) := c.peekChildren v.node v.names

/-- Those of them that an element input takes: all if its type is a collection, else the first. -/
def chosen (v : Visit) (c : Taken) : List (Node × Nat) :=
  if Visitor.takesAll v.type then v.matching c else (v.matching c).take 1

section Matching

variable {v : Visit} {c : Taken}

/-- If there is anything to choose from, something is chosen. -/
theorem chosen_ne_nil (h : v.matching c ≠ []) : v.chosen c ≠ [] := by
  obtain ⟨first, rest, hfound⟩ := List.exists_cons_of_ne_nil h
  unfold chosen
  split <;> simp [hfound]

/-- The children that are found are taken, also by a marker without a name whose aliases find
them. -/
theorem takeChildren_of_matching (h : v.matching c ≠ []) :
    v.takeChildren c (!Visitor.takesAll v.type) =
      (.ok ((v.chosen c).map (·.1)), c.markChildren ((v.chosen c).map (·.2))) := by
  have hfound : c.takeChildren v.node v.names (!Visitor.takesAll v.type) =
      (v.chosen c, c.markChildren ((v.chosen c).map (·.2))) := by
    unfold chosen
    cases htype : Visitor.takesAll v.type <;> rfl
  have hne := chosen_ne_nil h
  unfold takeChildren
  unfold names at hfound
  cases hname : v.marker.name with
  | some name =>
    rw [hname, Option.toList_some] at hfound
    simp only [hfound]
  | none =>
    rw [hname, Option.toList_none, List.append_nil] at hfound
    dsimp only
    rw [hfound]
    split
    · next heq => exact absurd (congrArg Prod.fst heq) hne
    · next heq =>
      obtain ⟨rfl, rfl⟩ := Prod.mk.inj heq
      rfl

end Matching

end Visit

namespace Visitor

/-- The instances of some children. -/
def instances (found : List (Node × Nat)) : List Value := found.map (·.1.built)

/-- What an element input comes to where its names find children. -/
theorem visit_ofElement_of_matching {v : Visit} {c : Taken} (h : v.matching c ≠ []) :
    (ofElement.visit v c).result = .ok (delivered v.type (instances (v.chosen c))) ∧
      (ofElement.visit v c).taken = c.markChildren ((v.chosen c).map (·.2)) := by
  have hfound : ((v.chosen c).map (·.1)).isEmpty = false := by
    rw [List.isEmpty_map, List.isEmpty_eq_false_iff]
    exact Visit.chosen_ne_nil h
  have hinstances : ((v.chosen c).map (·.1)).map Node.built = instances (v.chosen c) := by
    rw [List.map_map]
    rfl
  rw [visit_ofElement_eq, Visit.takeChildren_of_matching h, deliverElements]
  dsimp only
  rw [hfound, hinstances]
  exact ⟨rfl, rfl⟩

/-- A value is no collection that it is the first item of. -/
theorem ne_collection_cons (tuple : Bool) (x : Value) (xs : List Value) :
    x ≠ if tuple then .tuple (x :: xs) else .list (x :: xs) := by
  intro h
  have hsize := congrArg sizeOf h
  cases tuple <;>
  · simp at hsize
    omega

/-- The visitors that read a text, and those that do not look at the type, make no difference
between a type and the optional of it. -/
theorem visit_optional {w : Visitor} (hw : w ∈ [ofAttribute, ofText, ofNode, ofConfiguration])
    (v : Visit) (t : TypeExpr) (nullFirst : Bool) (c : Taken) :
    w.visit { v with type := .optional t nullFirst } c = w.visit { v with type := t } c := by
  have hconverted : ({ v with type := .optional t nullFirst } : Visit).converted =
      ({ v with type := t } : Visit).converted := by
    funext x
    unfold Visit.converted Converters.convertValue
    cases x with
    | str s => simp only [Converters.convert]
    | _ => rfl
  simp only [List.mem_cons, List.not_mem_nil, or_false] at hw
  rcases hw with rfl | rfl | rfl | rfl
  · simp only [ofAttribute, hconverted]
    rfl
  · simp only [ofText, hconverted]
    rfl
  · rfl
  · rfl

section Optional

variable {v : Visit} {c : Taken} {first : Node × Nat} {rest : List (Node × Nat)}

/-- The children that are found are free, and each is found once. -/
theorem free_of_matching (h : v.matching c = first :: rest) :
    (∀ e ∈ first :: rest, e ∈ c.freeChildren v.node) ∧ ((first :: rest).map (·.2)).Nodup := by
  have hsub : (first :: rest).Sublist (c.freeChildren v.node) :=
    h ▸ peekChildren_sublist v.node c v.names
  exact ⟨fun e he => hsub.subset he, (hsub.map _).nodup (nodup_freeChildren v.node c)⟩

/-- The children behind the first one are left, if only that one is taken. -/
theorem childLeft_of_mem_rest (h : v.matching c = first :: rest) {e : Node × Nat} (he : e ∈ rest) :
    ChildLeft v.node (c.markChildren [first.2]) e := by
  obtain ⟨hfree, hnodup⟩ := free_of_matching h
  have hplace : e.2 ≠ first.2 := by
    intro heq
    exact (List.nodup_cons.1 hnodup).1 (List.mem_map.2 ⟨e, he, heq⟩)
  apply childLeft_of_free
  rw [freeChildren_markChildren, List.mem_filter]
  exact ⟨hfree e (List.mem_cons_of_mem first he), by simpa using hplace⟩

/-- None of the children is free, if all of them are taken. -/
theorem not_free_of_mem_matching (found : List (Node × Nat)) {e : Node × Nat} (he : e ∈ found) :
    e ∉ (c.markChildren (found.map (·.2))).freeChildren v.node := by
  rw [freeChildren_markChildren, List.mem_filter]
  rintro ⟨_, hplace⟩
  exact (of_decide_eq_true hplace) (List.mem_map_of_mem he)

end Optional

/-- Where the names of an element input find children, an input of a collection takes them all and
delivers the instances of all in their order, and an input of the optional of this type takes the
first child and delivers its instance. These are never the same value, and the same children are
taken just if there is only one. The other children are still to be had and will be reported.
Inputs of every other built-in kind are the same for both types. -/
theorem visit_ofElement_optional (v : Visit) (c : Taken) (t : TypeExpr) (nullFirst : Bool)
    (first : Node × Nat) (rest : List (Node × Nat)) (ht : takesAll t = true)
    (hfound : v.matching c = first :: rest) :
    let all := ofElement.visit { v with type := t } c
    let single := ofElement.visit { v with type := .optional t nullFirst } c
    let xs := instances (first :: rest)
    (all.result = .ok (if givesTuple t then .tuple xs else .list xs) ∧
        all.taken = c.markChildren ((first :: rest).map (·.2)) ∧
        ∀ e ∈ first :: rest, e ∉ all.taken.freeChildren v.node) ∧
      (single.result = .ok first.1.built ∧ single.taken = c.markChildren [first.2] ∧
        ∀ e ∈ rest, ChildLeft v.node single.taken e) ∧
      single.result ≠ all.result ∧
      (single.taken = all.taken ↔ rest = []) ∧
      ∀ w ∈ [ofAttribute, ofText, ofNode, ofConfiguration],
        w.visit { v with type := .optional t nullFirst } c = w.visit { v with type := t } c := by
  intro all single xs
  have hne : v.matching c ≠ [] := by simp [hfound]
  obtain ⟨hall, halltaken⟩ := visit_ofElement_of_matching (v := { v with type := t }) hne
  obtain ⟨hsingle, hsingletaken⟩ :=
    visit_ofElement_of_matching (v := { v with type := .optional t nullFirst }) hne
  have hchosen : ({ v with type := t } : Visit).chosen c = first :: rest := by
    rw [Visit.chosen, if_pos ht]
    exact hfound
  have hfirst : ({ v with type := .optional t nullFirst } : Visit).chosen c = [first] := by
    rw [Visit.chosen, if_neg (by simp [takesAll])]
    exact congrArg (List.take 1) hfound
  rw [hchosen] at hall halltaken
  rw [hfirst] at hsingle hsingletaken
  have hcollection : all.result = .ok (if givesTuple t then .tuple xs else .list xs) := by
    rw [hall]
    exact congrArg Except.ok (if_pos ht)
  have hvalue : single.result = .ok first.1.built := hsingle
  have hleft : ∀ e ∈ rest, ChildLeft v.node single.taken e := fun e he =>
    hsingletaken ▸ childLeft_of_mem_rest hfound he
  have hnone : ∀ e ∈ first :: rest, e ∉ all.taken.freeChildren v.node := fun e he =>
    halltaken ▸ not_free_of_mem_matching (first :: rest) he
  refine ⟨⟨hcollection, halltaken, hnone⟩, ⟨hvalue, hsingletaken, hleft⟩, ?_, ?_,
    fun w hw => visit_optional hw v t nullFirst c⟩
  · rw [hvalue, hcollection]
    exact fun heq => ne_collection_cons (givesTuple t) _ (instances rest) (Except.ok.inj heq)
  · constructor
    · intro heq
      rw [List.eq_nil_iff_forall_not_mem]
      intro e he
      exact hnone e (List.mem_cons_of_mem first he) (heq ▸ (hleft e he).free)
    · rintro rfl
      exact hsingletaken.trans halltaken.symm

/-- An element with two children of one name that were built, and another one. -/
private def chain : Node :=
  ⟨"Chain", [], .none, .empty,
    [⟨"Filter", [], .none, ⟨.none, .int 1⟩, []⟩, ⟨"Layout", [], .none, .empty, []⟩,
      ⟨"filter", [], .none, ⟨.none, .int 2⟩, []⟩]⟩

/-- A visit of this element by an input of a type. -/
private def filters (t : TypeExpr) : Visit :=
  ⟨⟨.element false, some "Filter"⟩, [], t, chain, .null, .none, .none, .standard⟩

/-- The two filters of the example, with the instances that they are built as. -/
private theorem matching_filters (t : TypeExpr) :
    ∃ first last, (filters t).matching .none = [first, last] ∧ first.2 = 0 ∧ last.2 = 2 ∧
      first.1.built = .int 1 ∧ last.1.built = .int 2 := by
  refine ⟨(⟨"Filter", [], .none, ⟨.none, .int 1⟩, []⟩, 0),
    (⟨"filter", [], .none, ⟨.none, .int 2⟩, []⟩, 2), ?_, rfl, rfl, rfl, rfl⟩
  obtain ⟨hother, hlast⟩ : sameName "Layout" "Filter" = false ∧
      sameName "filter" "Filter" = true := by
    decide +kernel
  simp [Visit.matching, Visit.names, filters, chain, peekChildren, childrenNamed, freeChildren,
    Taken.none, hother, hlast]

/-- Two children are delivered as a list, and only the first of them if the list is optional. -/
theorem visit_ofElement_optional_chain :
    (ofElement.visit (filters (.listOf (.basic .int))) .none).result =
        .ok (.list [.int 1, .int 2]) ∧
      (ofElement.visit (filters (.optional (.listOf (.basic .int)) false)) .none).result =
        .ok (.int 1) ∧
      (ofElement.visit (filters (.optional (.listOf (.basic .int)) false)) .none).taken =
        ⟨[], [0]⟩ := by
  obtain ⟨first, last, hfound, hfirst, _, hone, htwo⟩ := matching_filters (.listOf (.basic .int))
  obtain ⟨⟨hall, _⟩, ⟨hsingle, htaken, _⟩, _⟩ :=
    visit_ofElement_optional (filters (.listOf (.basic .int))) .none (.listOf (.basic .int)) false
      first [last] rfl hfound
  rw [instances, List.map_cons, List.map_singleton, hone, htwo] at hall
  rw [hone] at hsingle
  rw [hfirst] at htaken
  exact ⟨hall, hsingle, htaken⟩

/-- An element input of an optional collection is not like one of the collection. -/
theorem not_forall_visit_ofElement_optional :
    ¬ ∀ (v : Visit) (c : Taken) (t : TypeExpr) (nullFirst : Bool),
      takesAll t = true → v.matching c ≠ [] →
        (ofElement.visit { v with type := .optional t nullFirst } c).result =
            (ofElement.visit { v with type := t } c).result ∧
          (ofElement.visit { v with type := .optional t nullFirst } c).taken =
            (ofElement.visit { v with type := t } c).taken := by
  intro h
  have hne : (filters (.basic .list)).matching .none ≠ [] := by
    obtain ⟨_, _, hfound, _⟩ := matching_filters (.basic .list)
    simp [hfound]
  have htaken := (h (filters (.basic .list)) .none (.listOf (.basic .int)) false rfl hne).2
  have hsingle : (ofElement.visit
      { filters (.basic .list) with type := .optional (.listOf (.basic .int)) false }
      .none).taken.children = [0] := by
    decide +kernel
  rw [htaken] at hsingle
  revert hsingle
  decide +kernel

end Visitor
end ConfigAssembly
