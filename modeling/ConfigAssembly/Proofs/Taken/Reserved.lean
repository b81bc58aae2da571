import ConfigAssembly.Proofs.Taken.Delivery

/-!
# Elements with children set aside

Children with reserved names are set aside before anything is taken (`Taken.reserving`). Which of
them there are, and where, does not matter to anyone who takes: if of an element the same is free
with other children (`Taken.Matches`), as it is when these differ in reserved ones only
(`Taken.Matches.reserving`), then names take the same from it and leave the same
(`Taken.Matches.takeAttribute`, `Taken.Matches.takeChildren`), and the same is left over at the end
(`Taken.Matches.leftovers_eq`). A child may have another place among the other children, so what is
free is compared in its order.
-/

namespace ConfigAssembly

open ConfigAssembly.Text

/-- The name of an element is one of the reserved ones, which are given in lower case. -/
def isReserved (reserved : List String) (n : Node) : Bool := reserved.contains (lower n.name)

/-! ### Lists with places -/

section Places

variable {α : Type} {es : List (α × Nat)}

/-- All of a kind are taken out by their places. -/
theorem filter_not_mem_places (h : (es.map (·.2)).Nodup) (p : α → Bool) :
    es.filter (fun e => e.2 ∉ (es.filter (p ·.1)).map (·.2)) = es.filter (!p ·.1) := by
  refine List.filter_congr fun e he => ?_
  have hplace : e.2 ∈ (es.filter (p ·.1)).map (·.2) ↔ p e.1 = true := by
    constructor
    · intro hmem
      obtain ⟨e', he', hsame⟩ := List.mem_map.1 hmem
      obtain ⟨hes, hp⟩ := List.mem_filter.1 he'
      exact List.inj_on_of_nodup_map h hes he hsame ▸ hp
    · intro hp
      exact List.mem_map_of_mem (List.mem_filter.2 ⟨he, hp⟩)
  simp [hplace]

/-- The first of a kind is taken out by its place. -/
theorem filter_not_mem_first (h : (es.map (·.2)).Nodup) (p : α → Bool) :
    es.filter (fun e => e.2 ∉ ((es.filter (p ·.1)).take 1).map (·.2)) = es.eraseP (p ·.1) := by
  induction es with
  | nil => rfl
  | cons e es ih =>
    rw [List.map_cons, List.nodup_cons] at h
    obtain ⟨hnew, hnodup⟩ := h
    cases hp : p e.1 with
    | true =>
      have hrest : es.filter (fun x => x.2 ∉ [e.2]) = es := by
        rw [List.filter_eq_self]
        intro x hx
        have hne : x.2 ≠ e.2 := fun hsame => hnew (hsame ▸ List.mem_map_of_mem hx)
        simpa using hne
      have hfound : (e :: es).filter (p ·.1) = e :: es.filter (p ·.1) :=
        List.filter_cons_of_pos (p := fun x : α × Nat => p x.1) hp
      rw [hfound, List.eraseP_cons_of_pos (p := fun x : α × Nat => p x.1) hp]
      simpa using hrest
    | false =>
      have hkept : e.2 ∉ ((es.filter (p ·.1)).take 1).map (·.2) := by
        intro hmem
        obtain ⟨x, hx, hsame⟩ := List.mem_map.1 hmem
        exact hnew (hsame ▸ List.mem_map_of_mem (List.mem_filter.1 (List.mem_of_mem_take hx)).1)
      have hneg : ¬ p e.1 = true := by simp [hp]
      have hfound : (e :: es).filter (p ·.1) = es.filter (p ·.1) :=
        List.filter_cons_of_neg (p := fun x : α × Nat => p x.1) hneg
      rw [hfound, List.eraseP_cons_of_neg (p := fun x : α × Nat => p x.1) hneg,
        List.filter_cons_of_pos (by simpa using hkept), ih hnodup]

end Places

namespace Taken

/-- Of an element and of the element with other children the same is free, in the same order. -/
structure Matches (n : Node) (cs : List Node) (c c' : Taken) : Prop where
  attributes : c.attributes = c'.attributes
  children : (c.freeChildren n).map (·.1) = (c'.freeChildren (n.withChildren cs)).map (·.1)

/-- Marking children leaves the others free. -/
theorem freeChildren_markChildren (c : Taken) (n : Node) (is : List Nat) :
    (c.markChildren is).freeChildren n = (c.freeChildren n).filter (fun e => e.2 ∉ is) := by
  rw [freeChildren, freeChildren, List.filter_filter]
  refine List.filter_congr fun e _ => ?_
  simp [mem_children_markChildren]

/-- Marking an attribute that is taken changes nothing. -/
theorem attributes_markAttribute (c : Taken) (key : String) :
    (c.markAttribute key).attributes =
      if c.attributes.contains key then c.attributes else c.attributes ++ [key] := by
  unfold markAttribute
  split <;> rfl

/-- Marking an attribute leaves all children free. -/
theorem freeChildren_markAttribute (c : Taken) (n : Node) (key : String) :
    (c.markAttribute key).freeChildren n = c.freeChildren n := by
  rw [freeChildren, freeChildren, children_markAttribute]

/-- What is free once children of a kind are taken, all or only the first. -/
theorem freeChildren_chosen (c : Taken) (n : Node) (p : Node → Bool) (firstOnly : Bool) :
    let found := (c.freeChildren n).filter (p ·.1)
    let chosen := if firstOnly then found.take 1 else found
    (c.markChildren (chosen.map (·.2))).freeChildren n =
      if firstOnly then (c.freeChildren n).eraseP (p ·.1)
      else (c.freeChildren n).filter (!p ·.1) := by
  have hnodup := nodup_freeChildren n c
  cases firstOnly with
  | true => exact (freeChildren_markChildren c n _).trans (filter_not_mem_first hnodup p)
  | false => exact (freeChildren_markChildren c n _).trans (filter_not_mem_places hnodup p)

/-- What is free at the beginning. -/
theorem freeChildren_reserving (n : Node) (reserved : List String) :
    ((reserving n reserved).freeChildren n).map (·.1) =
      n.children.filter (!isReserved reserved ·) := by
  have hnodup : (n.children.zipIdx.map (·.2)).Nodup := by
    rw [List.zipIdx_map_snd]
    exact List.nodup_range'
  have hfree : (reserving n reserved).freeChildren n =
      n.children.zipIdx.filter (!isReserved reserved ·.1) := by
    rw [← filter_not_mem_places hnodup]
    refine List.filter_congr fun e _ => ?_
    rw [reserving, List.contains_eq_mem, decide_not]
    rfl
  rw [hfree]
  calc (n.children.zipIdx.filter (!isReserved reserved ·.1)).map (·.1)
      = (n.children.zipIdx.map (·.1)).filter (!isReserved reserved ·) := by
        rw [List.filter_map]
        rfl
    _ = n.children.filter (!isReserved reserved ·) := by rw [List.zipIdx_map_fst]

namespace Matches

variable {n : Node} {cs : List Node} {c c' : Taken}

/-! ### Attributes -/

/-- Names find and take the same attribute. -/
theorem takeAttribute (h : Matches n cs c c') (names : List String) :
    (c.takeAttribute n names).1 = (c'.takeAttribute (n.withChildren cs) names).1 ∧
      Matches n cs (c.takeAttribute n names).2 (c'.takeAttribute (n.withChildren cs) names).2 := by
  have hnamed : c.attributeNamed n = c'.attributeNamed (n.withChildren cs) := by
    funext name
    rw [attributeNamed, attributeNamed, freeAttributes, freeAttributes, h.attributes]
    rfl
  unfold Taken.takeAttribute
  rw [peekAttribute, peekAttribute, hnamed]
  cases names.findSome? (c'.attributeNamed (n.withChildren cs)) with
  | none => exact ⟨rfl, h⟩
  | some a =>
    refine ⟨rfl, ?_, ?_⟩
    · rw [attributes_markAttribute, attributes_markAttribute, h.attributes]
    · rw [freeChildren_markAttribute, freeChildren_markAttribute]
      exact h.children

/-! ### Children -/

/-- The free children of a kind are the same. -/
theorem map_filter (h : Matches n cs c c') (p : Node → Bool) :
    ((c.freeChildren n).filter (p ·.1)).map (·.1) =
      ((c'.freeChildren (n.withChildren cs)).filter (p ·.1)).map (·.1) := by
  have hfilter := congrArg (List.filter p) h.children
  rw [List.filter_map, List.filter_map] at hfilter
  exact hfilter

/-- Names find the free children of one kind with either children. -/
theorem peekChildren (h : Matches n cs c c') (names : List String) :
    ∃ p : Node → Bool, c.peekChildren n names = (c.freeChildren n).filter (p ·.1) ∧
      c'.peekChildren (n.withChildren cs) names =
        (c'.freeChildren (n.withChildren cs)).filter (p ·.1) := by
  induction names with
  | nil => exact ⟨fun _ => false, by simp [Taken.peekChildren], by simp [Taken.peekChildren]⟩
  | cons name names ih =>
    have hempty : (c.childrenNamed n name).isEmpty =
        (c'.childrenNamed (n.withChildren cs) name).isEmpty := by
      have hnamed := congrArg List.isEmpty (h.map_filter fun m => sameName m.name name)
      rw [List.isEmpty_map, List.isEmpty_map] at hnamed
      exact hnamed
    rw [Taken.peekChildren, Taken.peekChildren, hempty]
    split
    · exact ih
    · exact ⟨fun m => sameName m.name name, rfl, rfl⟩

/-- Names find and take the same children. -/
theorem takeChildren (h : Matches n cs c c') (names : List String) (firstOnly : Bool) :
    (c.takeChildren n names firstOnly).1.map (·.1) =
        (c'.takeChildren (n.withChildren cs) names firstOnly).1.map (·.1) ∧
      Matches n cs (c.takeChildren n names firstOnly).2
        (c'.takeChildren (n.withChildren cs) names firstOnly).2 := by
  obtain ⟨p, hp, hp'⟩ := h.peekChildren names
  unfold Taken.takeChildren
  rw [hp, hp']
  refine ⟨?_, ?_, ?_⟩
  · have hfound := h.map_filter p
    cases firstOnly with
    | true => exact List.map_take.trans ((congrArg (List.take 1) hfound).trans List.map_take.symm)
    | false => exact hfound
  · dsimp only
    rw [attributes_markChildren, attributes_markChildren]
    exact h.attributes
  · dsimp only
    rw [freeChildren_chosen, freeChildren_chosen]
    cases firstOnly with
    | true =>
      have herase := congrArg (List.eraseP p) h.children
      rw [List.eraseP_map, List.eraseP_map] at herase
      exact herase
    | false => exact h.map_filter fun m => !p m

/-! ### Beginning and end -/

/-- The same is free at the beginning if the children that are not reserved are the same. -/
theorem reserving {reserved reserved' : List String}
    (h : n.children.filter (!isReserved reserved ·) = cs.filter (!isReserved reserved' ·)) :
    Matches n cs (.reserving n reserved) (.reserving (n.withChildren cs) reserved') where
  attributes := rfl
  children := by
    rw [freeChildren_reserving, freeChildren_reserving, h]
    rfl

/-- The same is left over. -/
theorem leftovers_eq (h : Matches n cs c c') (deferChildren : Bool) :
    c.leftovers n deferChildren = c'.leftovers (n.withChildren cs) deferChildren := by
  have hattributes : c.unusedAttributes n = c'.unusedAttributes (n.withChildren cs) := by
    rw [unusedAttributes, unusedAttributes, freeAttributes, freeAttributes, h.attributes]
    rfl
  have hchildren : c.unusedChildren n = c'.unusedChildren (n.withChildren cs) := by
    have hreports := congrArg (List.map (childReport n)) h.children
    rw [List.map_map, List.map_map] at hreports
    exact hreports
  rw [leftovers, leftovers, hattributes, hchildren]

end Matches
end Taken
end ConfigAssembly
