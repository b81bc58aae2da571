import Mathlib.Data.List.Nodup
import ConfigAssembly.Proofs.Document.Entries
import ConfigAssembly.Proofs.Position

/-!
# Elements that refer to their parents

The loader numbers elements as it makes them and links each to the element that it is added to. What
it makes is compared with `PlainTree.ofContent`, which reads the same content without numbers:

* `follows_makeContent`: the loader ends as `PlainTree.ofContent` does, and the element it makes is
  the plain one with links, with numbers from a range of its own (`Renders`).
* `ofContent_eq`, `ofDocument_eq`: without the links, what is loaded is what is read plainly.
* `parented_of_ofContent`: every element but the root refers to the one that has it as a child.
-/

namespace ConfigAssembly

/-! ### Numbers and links -/

namespace Tree

variable {α σ : Type}

/-- A tree without what is noted in it. -/
theorem plain_eq (t : Tree α σ) :
    t.plain = ⟨t.name, t.attributes, t.text, (), t.children.map plain⟩ := by
  rw [plain, map_eq]
  simp [plain]

end Tree

namespace LinkedTree

variable {α : Type} {t c : LinkedTree α} {lo mid hi : Nat}

/-- The numbers in a tree. -/
def numbers (t : LinkedTree α) : List Nat := t.walk.map fun e => e.slot.number

/-- The numbers of a tree are those below its root and that of the root. -/
theorem numbers_eq (t : LinkedTree α) :
    t.numbers = t.children.flatMap numbers ++ [t.slot.number] := by
  rw [numbers, Tree.walk_eq, Tree.walkAll_eq, List.map_append, List.map_flatMap]
  rfl

/-- Adoption changes no numbers. -/
@[simp] theorem numbers_adoptedBy (t : LinkedTree α) (n : Nat) :
    (t.adoptedBy n).numbers = t.numbers := by
  rw [numbers_eq, numbers_eq]
  rfl

/-- The plain tree does not tell the parent. -/
@[simp] theorem plain_adoptedBy (t : LinkedTree α) (n : Nat) :
    (t.adoptedBy n).plain = t.plain := by
  rw [Tree.plain_eq, Tree.plain_eq]
  rfl

/-- With a child come its numbers. -/
theorem numbers_addChild (t c : LinkedTree α) :
    (t.addChild c).numbers.Perm (t.numbers ++ c.numbers) := by
  rw [numbers_eq, numbers_eq t]
  simp only [addChild, List.flatMap_append, List.flatMap_singleton, numbers_adoptedBy]
  rw [List.append_assoc, List.append_assoc]
  exact List.perm_append_comm.append_left _

/-- Every element below refers to the one that has it as a child. -/
def Linked (t : LinkedTree α) : Prop :=
  ∀ e ∈ t.walk, ∀ child ∈ e.children, child.slot.parent = some e.slot.number

/-- The links of a tree are those to its root and those of its children. -/
theorem linked_iff :
    t.Linked ↔ (∀ child ∈ t.children, child.slot.parent = some t.slot.number) ∧
      ∀ child ∈ t.children, Linked child := by
  unfold Linked
  rw [Tree.walk_eq, Tree.walkAll_eq]
  simp only [List.forall_mem_append, List.forall_mem_flatMap, List.forall_mem_singleton]
  exact and_comm

/-- A tree that is adopted stays linked inside. -/
theorem Linked.adoptedBy (h : t.Linked) (n : Nat) : (t.adoptedBy n).Linked := by
  have hlinks := linked_iff.1 h
  exact linked_iff.2 hlinks

/-- A linked element with one more child is linked. -/
theorem Linked.addChild (ht : t.Linked) (hc : c.Linked) : (t.addChild c).Linked := by
  obtain ⟨hroot, hbelow⟩ := linked_iff.1 ht
  refine linked_iff.2 ⟨?_, ?_⟩
  · exact List.forall_mem_append.2 ⟨hroot, List.forall_mem_singleton.2 rfl⟩
  · exact List.forall_mem_append.2 ⟨hbelow, List.forall_mem_singleton.2 (hc.adoptedBy _)⟩

/-- A linked tree with numbers from a range, no two of them the same. -/
structure Grown (lo hi : Nat) (t : LinkedTree α) : Prop where
  range : ∀ n ∈ t.numbers, lo ≤ n ∧ n < hi
  nodup : t.numbers.Nodup
  linked : t.Linked

/-- The range of a tree is not empty. -/
theorem Grown.lt (h : t.Grown lo hi) : lo < hi := by
  have hroot := h.range t.slot.number (by rw [numbers_eq]; simp)
  omega

/-- A child with later numbers is added. -/
theorem Grown.addChild (ht : t.Grown lo mid) (hc : c.Grown mid hi) :
    (t.addChild c).Grown lo hi where
  range n hn := by
    have hlo := ht.lt
    have hhi := hc.lt
    rcases List.mem_append.1 ((numbers_addChild t c).mem_iff.1 hn) with hn | hn
    · have := ht.range n hn
      omega
    · have := hc.range n hn
      omega
  nodup := by
    refine (numbers_addChild t c).nodup_iff.2 (ht.nodup.append hc.nodup fun n hn hn' => ?_)
    have := ht.range n hn
    have := hc.range n hn'
    omega
  linked := ht.linked.addChild hc.linked

/-! ### What the loader makes -/

/-- A computation ends as another one does: with a fault, or with results of which something
holds. -/
inductive Follows {β γ : Type} (P : β → Nat → γ → Prop) :
    Except ShapeFault (β × Nat) → Except ShapeFault γ → Prop
  | ok {x : β} {n : Nat} {y : γ} (h : P x n y) : Follows P (.ok (x, n)) (.ok y)
  | error (f : ShapeFault) : Follows P (.error f) (.error f)

/-- Computations one after the other. -/
theorem Follows.bind {β γ δ ε : Type} {P : β → Nat → γ → Prop} {Q : δ → Nat → ε → Prop}
    {x : Making β} {f : β → Making δ} {r : Except ShapeFault γ} {g : γ → Except ShapeFault ε}
    {n : Nat} (h : Follows P (x n) r) (hf : ∀ y n z, P y n z → Follows Q (f y n) (g z)) :
    Follows Q ((x >>= f) n) (r >>= g) := by
  change Follows Q ((x n).bind fun p => f p.1 p.2) (r.bind g)
  generalize x n = o at h ⊢
  cases h with
  | ok h => exact hf _ _ _ h
  | error f => exact .error f

/-- A result is taken further in both. -/
theorem Follows.map {β γ δ ε : Type} {P : β → Nat → γ → Prop} {Q : δ → Nat → ε → Prop}
    {x : Making β} {f : β → δ} {r : Except ShapeFault γ} {g : γ → ε} {n : Nat}
    (h : Follows P (x n) r) (hf : ∀ y n z, P y n z → Q (f y) n (g z)) :
    Follows Q ((do pure (f (← x))) n) (r.map g) :=
  h.bind (g := fun z => .ok (g z)) fun y n z hyz => .ok (hf y n z hyz)

/-- A text is read without a number. -/
theorem follows_lift {β : Type} (r : Except ShapeFault β) (n : Nat) :
    Follows (fun x n' y => x = y ∧ n' = n) ((liftM r : Making β) n) r := by
  cases r with
  | ok x => exact .ok ⟨rfl, rfl⟩
  | error f => exact .error f

/-- An element that has been made: a plain one with links, and with numbers from a range. -/
structure Renders (lo : Nat) (slot : Link) (t : LinkedTree String) (hi : Nat) (p : PlainTree) :
    Prop where
  grown : t.Grown lo hi
  slot : t.slot = slot
  plain : t.plain = p

/-- A new element. -/
theorem renders_new (name : String) (n : Nat) :
    Renders n ⟨n, none⟩ (create n name [] none []) (n + 1) (PlainTree.empty name) := by
  refine ⟨⟨?_, ?_, ?_⟩, rfl, rfl⟩
  · intro m hm
    obtain rfl := List.mem_singleton.1 hm
    exact ⟨Nat.le_refl _, Nat.lt_succ_self _⟩
  · exact List.nodup_singleton n
  · exact linked_iff.2 ⟨nofun, nofun⟩

section Renders

variable {slot slot' : Link} {t c : LinkedTree String} {lo mid hi : Nat} {p q : PlainTree}

/-- A child is added to both. -/
theorem Renders.addChild (ht : Renders lo slot t mid p) (hc : Renders mid slot' c hi q) :
    Renders lo slot (t.addChild c) hi (p.withChildren [q]) where
  grown := ht.grown.addChild hc.grown
  slot := ht.slot
  plain := by
    rw [← ht.plain, ← hc.plain, Tree.plain_eq, Tree.plain_eq t]
    simp [LinkedTree.addChild, PlainTree.withChildren]

/-- An attribute is written in both. -/
theorem Renders.withAttribute (h : Renders lo slot t hi p) (key value : String) :
    Renders lo slot (t.withAttribute key value) hi (p.withAttribute key value) where
  grown := by
    have hgrown := h.grown
    have hnumbers : (t.withAttribute key value).numbers = t.numbers := by
      rw [numbers_eq, numbers_eq t]
      rfl
    have hlinked := linked_iff.1 hgrown.linked
    exact ⟨hnumbers ▸ hgrown.range, hnumbers ▸ hgrown.nodup, linked_iff.2 hlinked⟩
  slot := h.slot
  plain := by
    rw [← h.plain, Tree.plain_eq, Tree.plain_eq t]
    rfl

/-- A text is written in both. -/
theorem Renders.withText (h : Renders lo slot t hi p) (text : String) :
    Renders lo slot { t with text := some text } hi { p with text := some text } where
  grown := by
    have hgrown := h.grown
    have hnumbers : numbers { t with text := some text } = t.numbers := by
      rw [numbers_eq, numbers_eq t]
    have hlinked := linked_iff.1 hgrown.linked
    exact ⟨hnumbers ▸ hgrown.range, hnumbers ▸ hgrown.nodup, linked_iff.2 hlinked⟩
  slot := h.slot
  plain := by
    rw [← h.plain, Tree.plain_eq, Tree.plain_eq t]

end Renders

/-- A scalar is the text of a new element. -/
theorem makeContent_scalar (name : String) {v : Value} (hv : v ≠ .null) :
    makeContent name (.scalar v) = (do
      let t ← new name
      let s ← scalarText v
      pure { t with text := some s }) := by
  cases v <;> first | rfl | exact absurd rfl hv

/-- An entry with a scalar is an attribute. -/
theorem makeEntry_scalar (t : LinkedTree String) (name : String) {v : Value} (hv : v ≠ .null) :
    makeEntry t name (.scalar v) = (do
      let s ← scalarText v
      pure (t.withAttribute name s)) := by
  cases v <;> first | rfl | exact absurd rfl hv

mutual

/-- The loader makes of content what is read plainly. -/
theorem follows_makeContent (name : String) (c : Content) (n : Nat) :
    Follows (Renders n ⟨n, none⟩) (makeContent name c n) (PlainTree.ofContent name c) := by
  cases c with
  | scalar v =>
    by_cases hnull : v = .null
    · rw [hnull]
      exact .ok (renders_new name n)
    · rw [makeContent_scalar name hnull, PlainTree.ofContent_scalar name hnull]
      change Follows _ ((do
        let s ← scalarText v
        pure { create n name [] none [] with text := some s } : Making _) (n + 1)) _
      refine (follows_lift _ (n + 1)).map ?_
      rintro s _ _ ⟨rfl, rfl⟩
      exact (renders_new name n).withText s
  | sequence items => exact .error _
  | againSequence => exact .error _
  | againMapping => exact .error _
  | mapping es =>
    rw [makeContent, PlainTree.ofContent]
    exact follows_makeEntries (renders_new name n) es

/-- The entries of a mapping are added to an element as they are read plainly. -/
theorem follows_makeEntries {t : LinkedTree String} {p : PlainTree} {lo n : Nat} {slot : Link}
    (h : Renders lo slot t n p) (es : List (Value × Content)) :
    Follows (Renders lo slot) (makeEntries t es n) (PlainTree.ofEntries p es) := by
  match es with
  | [] => exact .ok h
  | (k, c) :: es =>
    rw [makeEntries, PlainTree.ofEntries]
    refine (follows_lift _ n).bind ?_
    rintro name _ _ ⟨rfl, rfl⟩
    exact (follows_makeEntry h name c).bind fun t n p ht => follows_makeEntries ht es

/-- The value of an entry is added to an element as it is read plainly. -/
theorem follows_makeEntry {t : LinkedTree String} {p : PlainTree} {lo n : Nat} {slot : Link}
    (h : Renders lo slot t n p) (name : String) (c : Content) :
    Follows (Renders lo slot) (makeEntry t name c n) (PlainTree.ofEntry p name c) := by
  cases c with
  | scalar v =>
    by_cases hnull : v = .null
    · rw [hnull]
      exact .ok (h.addChild (renders_new name n))
    · rw [makeEntry_scalar t name hnull, PlainTree.ofEntry_scalar p name hnull]
      refine (follows_lift _ n).map ?_
      rintro s _ _ ⟨rfl, rfl⟩
      exact h.withAttribute name s
  | sequence items =>
    rw [makeEntry, PlainTree.ofEntry]
    exact follows_makeItems h name items
  | mapping inner =>
    rw [makeEntry, PlainTree.ofEntry]
    exact (follows_makeEntries (renders_new name n) inner).map fun c n q hc => h.addChild hc
  | againSequence => exact .error _
  | againMapping => exact .error _

/-- The items of a sequence are added to an element as they are read plainly. -/
theorem follows_makeItems {t : LinkedTree String} {p : PlainTree} {lo n : Nat} {slot : Link}
    (h : Renders lo slot t n p) (name : String) (cs : List Content) :
    Follows (Renders lo slot) (makeItems t name cs n)
      ((PlainTree.ofItems name cs).map p.withChildren) := by
  match cs with
  | [] =>
    rw [makeItems, PlainTree.ofItems]
    refine .ok ?_
    rwa [PlainTree.withChildren_nil]
  | c :: cs =>
    rw [makeItems, PlainTree.ofItems_cons]
    exact (follows_makeContent name c n).bind fun c n q hc =>
      follows_makeItems (h.addChild hc) name cs

end

/-! ### What is loaded -/

/-- The elements of a tree differ in their numbers, the root has no parent, and every other element
refers to the one that has it as a child. -/
structure Parented (t : LinkedTree α) : Prop where
  nodup : (t.walk.map fun e => e.slot.number).Nodup
  root : t.parentOf? t = none
  parent : ∀ e ∈ t.walk, ∀ child ∈ e.children, t.parentOf? child = some e

/-- A number leads to the element that it stands for. -/
theorem find?_number {es : List (LinkedTree α)} {e : LinkedTree α}
    (h : (es.map fun e => e.slot.number).Nodup) (he : e ∈ es) :
    es.find? (·.slot.number == e.slot.number) = some e := by
  induction es with
  | nil => cases he
  | cons d es ih =>
    rw [List.map_cons, List.nodup_cons] at h
    rcases List.mem_cons.1 he with rfl | he
    · exact List.find?_cons_of_pos (beq_self_eq_true _)
    · have hne : d.slot.number ≠ e.slot.number := fun heq =>
        h.1 (heq ▸ List.mem_map_of_mem (f := fun e => e.slot.number) he)
      rw [List.find?_cons_of_neg (by simpa using hne), ih h.2 he]

/-- What has grown under fresh numbers, with no parent at the root, has its parents right. -/
theorem Grown.parented (h : t.Grown lo hi) (hroot : t.slot.parent = none) : t.Parented where
  nodup := h.nodup
  root := by rw [parentOf?, hroot, Option.bind_none]
  parent e he child hchild := by
    rw [parentOf?, h.linked e he child hchild, Option.bind_some, find?_number h.nodup he]

/-- Without the links, what is loaded of content is what is read plainly. -/
theorem ofContent_eq (name : String) (c : Content) :
    (ofContent name c).map Tree.plain = PlainTree.ofContent name c := by
  have hfollows := follows_makeContent name c 0
  change ((makeContent name c 0).map Prod.fst).map Tree.plain = _
  generalize makeContent name c 0 = made, PlainTree.ofContent name c = read at hfollows ⊢
  cases hfollows with
  | error f => rfl
  | ok h => exact congrArg Except.ok h.plain

/-- An element that is loaded is read plainly without its links. -/
theorem plain_of_ofContent {name : String} {c : Content} {t : LinkedTree String}
    (h : ofContent name c = .ok t) : PlainTree.ofContent name c = .ok t.plain := by
  rw [← ofContent_eq, h]
  rfl

/-- Every element that is loaded refers to its parent. -/
theorem parented_of_ofContent {name : String} {c : Content} {t : LinkedTree String}
    (h : ofContent name c = .ok t) : t.Parented := by
  have hfollows := follows_makeContent name c 0
  change (makeContent name c 0).map Prod.fst = .ok t at h
  generalize makeContent name c 0 = made, PlainTree.ofContent name c = read at hfollows h
  cases hfollows with
  | error f => cases h
  | ok hrenders =>
    cases h
    refine hrenders.grown.parented ?_
    rw [hrenders.slot]

/-- Without the links, what is loaded of a document is what is read plainly. -/
theorem ofDocument_eq (c : Content) :
    (ofDocument c).map Tree.plain = PlainTree.ofDocument c := by
  unfold PlainTree.ofDocument
  split
  · rename_i k c
    change ((keyText k).bind fun name => ofContent name c).map Tree.plain =
      (keyText k).bind fun name => PlainTree.ofContent name c
    cases keyText k with
    | error f => rfl
    | ok name => exact ofContent_eq name c
  · rename_i hne
    unfold ofDocument
    split
    · exact absurd rfl (hne _ _)
    · rfl

end LinkedTree
end ConfigAssembly
