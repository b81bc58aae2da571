import ConfigAssembly.Visitor

/-!
# Visits as a search and what is made of its answer

A built-in visitor searches the element once at most and makes a value of what it finds, without a
look at anything else that is taken. So a visit is its search followed by a function that leaves
alone what is taken (`Visitor.visit_ofAttribute_eq`, `Visitor.visit_ofElement_eq`,
`Visitor.visit_ofText_of_none`).
-/

namespace ConfigAssembly
namespace Visitor

/-! ### Attributes -/

/-- Delivers a text that was found. -/
def deliverText (v : Visit) (found : Except InputError (Option Value)) (c : Taken) :
    Outcome Value :=
  match found.bind v.configured with
  | .error e => ⟨.error e, c, []⟩
  | .ok x =>
    match v.demand x (.missingText v.node.name) with
    | .error e => ⟨.error e, c, []⟩
    | .ok () => ⟨v.converted x, c, []⟩

/-- The text of the node is delivered, and nothing taken. -/
theorem visit_ofText_of_some {v : Visit} {s : String} (h : v.node.text = some s) (c : Taken) :
    ofText.visit v c = deliverText v (.ok (some (.str s))) c := by
  simp only [ofText, h]
  rfl

/-- Without a text an attribute is taken in its place. -/
theorem visit_ofText_of_none {v : Visit} (h : v.node.text = none) (c : Taken) :
    ofText.visit v c = deliverText v (v.takeAttribute c).1 (v.takeAttribute c).2 := by
  simp only [ofText, h]
  rfl

/-! ### Children -/

/-- Delivers the instances of children that were found. -/
def deliverElements (v : Visit) (found : Except InputError (List Node)) (c : Taken) :
    Outcome Value :=
  match found with
  | .error e => ⟨.error e, c, []⟩
  | .ok found =>
    match if found.isEmpty then v.need "required" v.marker.required? else .ok false with
    | .error e => ⟨.error e, c, []⟩
    | .ok true => ⟨.error (.missingElement v.node.name v.marker.shownName), c, []⟩
    | .ok false =>
      let xs := found.map Node.built
      ⟨.ok (delivered v.type xs), c, [v.trace (Value.shown (.list xs))]⟩

/-- Children are taken, all of them for a type that holds several, and their instances delivered. -/
theorem visit_ofElement_eq (v : Visit) (c : Taken) :
    ofElement.visit v c = deliverElements v (v.takeChildren c (!takesAll v.type)).1
      (v.takeChildren c (!takesAll v.type)).2 := by
  unfold ofElement deliverElements
  dsimp only
  generalize v.takeChildren c (!takesAll v.type) = p
  obtain ⟨found | e, c⟩ := p
  · rfl
  · rfl

/-! ### What is taken does not matter -/

end Visitor
end ConfigAssembly
