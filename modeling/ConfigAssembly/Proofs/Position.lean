import Mathlib.Data.List.Nodup
import ConfigAssembly.Tree

/-!
# Positions of a tree

`Tree.positions` lists the positions of a tree in the order in which `Tree.walk` lists its elements
(`map_at?_positions`). Every position of an element is among them (`mem_positions`), and none is
there twice (`nodup_positions`). What a tree has at the positions below its root is what the list
of its children has there (`at?_eq_atAll?`), so facts about trees are proved for lists of trees
alongside.
-/

namespace ConfigAssembly

namespace Position

/-- The position of the same element when one more child comes before those of the root. -/
def next : Position → Position
  | [] => []
  | i :: p => (i + 1) :: p

/-- The positions of the elements above a position, the root first. -/
def ancestors : Position → List Position
  | [] => []
  | i :: p => [] :: (ancestors p).map (i :: ·)

/-- Positions among later trees come from one position each. -/
theorem next_injective : Function.Injective next := by
  intro p q h
  cases p <;> cases q <;> simp_all [next]

/-- Two positions whose ways part: neither element is the other or above it. -/
def beside : Position → Position → Bool
  | i :: p, j :: q => i != j || beside p q
  | _, _ => false

/-- Nothing is beside the top. -/
@[simp] theorem beside_nil_left (q : Position) : beside [] q = false := by
  cases q <;> rfl

/-- The top is beside nothing. -/
@[simp] theorem beside_nil_right (p : Position) : beside p [] = false := by
  cases p <;> rfl

end Position

namespace Tree

variable {α σ : Type}

/-- A property of trees that passes from the children of a tree to the tree holds of all trees. -/
@[elab_as_elim]
theorem induct {P : Tree α σ → Prop} (h : ∀ t, (∀ c ∈ t.children, P c) → P t) (t : Tree α σ) :
    P t :=
  Tree.rec (motive_1 := P) (motive_2 := fun ts => ∀ c ∈ ts, P c)
    (fun _ _ _ _ _ ih => h _ ih)
    (fun _ hc => absurd hc List.not_mem_nil)
    (fun _ _ ht hts c hc => (List.mem_cons.1 hc).elim (fun e => e ▸ ht) (hts c)) t

mutual

/-- The positions of a tree, each after those below it. -/
def positions : Tree α σ → List Position
  | ⟨_, _, _, _, children⟩ => positionsAll children ++ [[]]

/-- The positions of several trees, as those of the children of a root. -/
def positionsAll : List (Tree α σ) → List Position
  | [] => []
  | t :: ts => (positions t).map (0 :: ·) ++ (positionsAll ts).map Position.next

end

/-- The element at a position, given the children of a root. -/
def atAll? (ts : List (Tree α σ)) : Position → Option (Tree α σ)
  | [] => none
  | i :: p => ts[i]?.bind (·.at? p)

/-- The positions in a tree are those in its children, and the top. -/
theorem positions_eq (t : Tree α σ) : t.positions = positionsAll t.children ++ [[]] := by
  cases t
  rfl

/-- At the top there is the tree. -/
@[simp] theorem at?_nil (t : Tree α σ) : t.at? [] = some t := rfl

/-- What is at a position below the top is in the child that the first step leads to. -/
theorem at?_cons (t : Tree α σ) (i : Nat) (p : Position) :
    t.at? (i :: p) = t.children[i]?.bind (·.at? p) := by
  rw [at?]
  cases t.children[i]? <;> rfl

/-- It is what the children have at the position. -/
theorem at?_eq_atAll? (t : Tree α σ) (i : Nat) (p : Position) :
    t.at? (i :: p) = atAll? t.children (i :: p) := at?_cons t i p

/-- No trees have nothing at any position. -/
@[simp] theorem atAll?_nil (p : Position) : atAll? ([] : List (Tree α σ)) p = none := by
  cases p <;> rfl

/-- The first step `0` leads to the first tree. -/
@[simp] theorem atAll?_cons_zero (t : Tree α σ) (ts : List (Tree α σ)) (p : Position) :
    atAll? (t :: ts) (0 :: p) = t.at? p := rfl

/-- Past the first tree the positions are those in the trees after it. -/
@[simp] theorem atAll?_cons_next (t : Tree α σ) (ts : List (Tree α σ)) (p : Position) :
    atAll? (t :: ts) p.next = atAll? ts p := by
  cases p <;> rfl

/-- A position in a list of trees leads to one of them. -/
theorem nil_not_mem_positionsAll (ts : List (Tree α σ)) : [] ∉ positionsAll ts := by
  induction ts with
  | nil => simp [positionsAll]
  | cons t ts ih =>
    simp only [positionsAll, List.mem_append, List.mem_map, not_or]
    refine ⟨by simp, ?_⟩
    rintro ⟨p, hp, he⟩
    cases p with
    | nil => exact ih hp
    | cons i p => simp [Position.next] at he

/-- The positions in the first tree. -/
theorem mem_positionsAll_cons_zero {t : Tree α σ} {ts : List (Tree α σ)} {p : Position} :
    0 :: p ∈ positionsAll (t :: ts) ↔ p ∈ t.positions := by
  have hnext : 0 :: p ∉ (positionsAll ts).map Position.next := by
    rw [List.mem_map]
    rintro ⟨q, _, he⟩
    cases q <;> simp [Position.next] at he
  rw [positionsAll, List.mem_append]
  simp [hnext]

/-- The positions in the trees after the first. -/
theorem mem_positionsAll_cons_next {t : Tree α σ} {ts : List (Tree α σ)} {p : Position} :
    p.next ∈ positionsAll (t :: ts) ↔ p ∈ positionsAll ts := by
  have hzero : p.next ∉ t.positions.map (0 :: ·) := by
    rw [List.mem_map]
    rintro ⟨q, _, he⟩
    cases p <;> simp [Position.next] at he
  rw [positionsAll, List.mem_append, List.mem_map_of_injective Position.next_injective]
  exact or_iff_right hzero

/-- Every position below the root is one of the first child or of those after it. -/
theorem forall_position {P : Position → Prop} (hnil : P []) (hzero : ∀ p, P (0 :: p))
    (hnext : ∀ p, P p → P p.next) : ∀ p, P p
  | [] => hnil
  | i :: p => by
    induction i with
    | zero => exact hzero p
    | succ i ih => exact hnext _ ih

mutual

/-- The elements at the positions of a tree are those of its walk, in the same order. -/
theorem map_at?_positions : (t : Tree α σ) → t.positions.map t.at? = t.walk.map some
  | ⟨name, attributes, text, slot, children⟩ => by
    have hnil : [] ∉ positionsAll children := nil_not_mem_positionsAll children
    have hbelow : (positionsAll children).map (at? ⟨name, attributes, text, slot, children⟩) =
        (positionsAll children).map (atAll? children) := by
      refine List.map_congr_left fun p hp => ?_
      cases p with
      | nil => exact absurd hp hnil
      | cons i p => exact at?_cons _ i p
    rw [positions, walk, List.map_append, List.map_append, hbelow,
      map_atAll?_positionsAll children]
    rfl

/-- So it is for lists of trees. -/
theorem map_atAll?_positionsAll :
    (ts : List (Tree α σ)) → (positionsAll ts).map (atAll? ts) = (walkAll ts).map some
  | [] => rfl
  | t :: ts => by
    have hfirst : ((t.positions).map (0 :: ·)).map (atAll? (t :: ts)) = t.walk.map some := by
      rw [List.map_map, ← map_at?_positions t]
      rfl
    have hrest : ((positionsAll ts).map Position.next).map (atAll? (t :: ts)) =
        (walkAll ts).map some := by
      rw [List.map_map, ← map_atAll?_positionsAll ts]
      exact List.map_congr_left fun p _ => atAll?_cons_next t ts p
    rw [positionsAll, walkAll, List.map_append, List.map_append, hfirst, hrest]

end

mutual

/-- The positions of a tree are those at which it has an element. -/
theorem mem_positions : (t : Tree α σ) → (p : Position) → p ∈ t.positions ↔ (t.at? p).isSome
  | ⟨name, attributes, text, slot, children⟩, [] => by simp [positions]
  | ⟨name, attributes, text, slot, children⟩, i :: p => by
    rw [at?_eq_atAll?, ← mem_positionsAll children (i :: p)]
    simp [positions]

/-- The positions in a list of trees are those at which there is something. -/
theorem mem_positionsAll :
    (ts : List (Tree α σ)) → (p : Position) → p ∈ positionsAll ts ↔ (atAll? ts p).isSome
  | [], p => by simp [positionsAll]
  | t :: ts, p => by
    have ht := mem_positions t
    have hts := mem_positionsAll ts
    induction p using forall_position with
    | hnil => simpa [atAll?] using nil_not_mem_positionsAll (t :: ts)
    | hzero p => rw [mem_positionsAll_cons_zero, atAll?_cons_zero, ht p]
    | hnext p _ => rw [mem_positionsAll_cons_next, atAll?_cons_next, hts p]

end

mutual

/-- No position is listed twice. -/
theorem nodup_positions : (t : Tree α σ) → t.positions.Nodup
  | ⟨_, _, _, _, children⟩ => by
    have hnil := nil_not_mem_positionsAll children
    rw [positions, List.nodup_append]
    refine ⟨nodup_positionsAll children, by simp, ?_⟩
    rintro p hp q hq rfl
    rw [List.mem_singleton.1 hq] at hp
    exact hnil hp

/-- No position comes twice among those in a list of trees. -/
theorem nodup_positionsAll : (ts : List (Tree α σ)) → (positionsAll ts).Nodup
  | [] => by simp [positionsAll]
  | t :: ts => by
    have hzero : (t.positions.map (0 :: ·)).Nodup := (nodup_positions t).map (List.cons_injective)
    have hnext : ((positionsAll ts).map Position.next).Nodup :=
      (nodup_positionsAll ts).map Position.next_injective
    rw [positionsAll, List.nodup_append]
    refine ⟨hzero, hnext, ?_⟩
    rintro p hp q hq rfl
    obtain ⟨p', _, rfl⟩ := List.mem_map.1 hp
    obtain ⟨q', hq', he⟩ := List.mem_map.1 hq
    cases q' <;> simp [Position.next] at he

end

section Map

variable {β τ : Type} (f : α → β) (g : σ → τ)

/-- The parts of a tree that is mapped. -/
theorem map_eq (t : Tree α σ) :
    t.map f g = ⟨t.name, t.attributes.map fun (k, v) => (k, f v), t.text, g t.slot,
      t.children.map (map f g)⟩ := by
  cases t
  rw [map, mapAll_eq]

/-- The element at a position of a tree with other values. -/
theorem at?_map (p : Position) (t : Tree α σ) : (t.map f g).at? p = (t.at? p).map (map f g) := by
  induction p generalizing t with
  | nil => rfl
  | cons i p ih =>
    rw [at?_cons, at?_cons, map_eq, List.getElem?_map]
    cases t.children[i]? with
    | none => rfl
    | some c => exact ih c

mutual

/-- Other values leave the positions as they are. -/
theorem positions_map : (t : Tree α σ) → (t.map f g).positions = t.positions
  | ⟨_, _, _, _, children⟩ => by rw [map, positions, positions, positionsAll_mapAll children]

/-- Those in a list of trees too. -/
theorem positionsAll_mapAll :
    (ts : List (Tree α σ)) → positionsAll (mapAll f g ts) = positionsAll ts
  | [] => rfl
  | t :: ts => by rw [mapAll, positionsAll, positionsAll, positions_map t, positionsAll_mapAll ts]

end

end Map

end Tree
end ConfigAssembly
