import Mathlib.Data.List.Forall2
import Mathlib.Data.List.Nodup
import ConfigAssembly.Proofs.Taken.Delivery

/-!
# Looking things up under other spellings

An element is respelt if names of elements and keys of attributes are written with other letters of
the same lower case (`Respelt`). All look-ups go by the lower case, so they find what stands at the
same places in both elements. What is taken is known by its key for an attribute, as written, and by
its place for a child; so it must be told from the places what corresponds
(`Taken.Corresponds`), and every look-up keeps it so (`Taken.Corresponds.takeAttribute`,
`Taken.Corresponds.takeChildren`). As much is left over then (`Taken.Corresponds.kinds_leftovers`).
-/

namespace ConfigAssembly

open ConfigAssembly.Text

/-! ### Lists that are related element by element -/

section Related

variable {α β γ δ : Type} {R : α → β → Prop} {xs : List α} {ys : List β}

/-- The first of its kind is the first of its kind. -/
theorem rel_find? {p : α → Bool} {q : β → Bool} (hpq : ∀ x y, R x y → p x = q y)
    (h : List.Forall₂ R xs ys) : Option.Rel R (xs.find? p) (ys.find? q) := by
  induction h with
  | nil => exact .none
  | cons hxy _ ih =>
    rw [List.find?_cons, List.find?_cons, ← hpq _ _ hxy]
    split
    · exact .some hxy
    · exact ih

/-- What corresponds is the same in a respect in which it is the same. -/
theorem map_eq_of_forall₂ {f : α → γ} {g : β → γ} (hfg : ∀ x y, R x y → f x = g y)
    (h : List.Forall₂ R xs ys) : xs.map f = ys.map g := by
  induction h with
  | nil => rfl
  | cons hxy _ ih => rw [List.map_cons, List.map_cons, hfg _ _ hxy, ih]

/-- Filters that agree keep what corresponds. -/
theorem forall₂_filter {p : α → Bool} {q : β → Bool} (hpq : ∀ x y, R x y → p x = q y)
    (h : List.Forall₂ R xs ys) : List.Forall₂ R (xs.filter p) (ys.filter q) :=
  List.rel_filter (fun x y hxy => Bool.eq_iff_iff.1 (hpq x y hxy)) h

/-- Functions that agree make what corresponds. -/
theorem forall₂_map {S : γ → δ → Prop} {f : α → γ} {g : β → δ} (h : List.Forall₂ R xs ys)
    (hfg : ∀ x ∈ xs, ∀ y, R x y → S (f x) (g y)) : List.Forall₂ S (xs.map f) (ys.map g) := by
  induction h with
  | nil => exact .nil
  | cons hxy _ ih =>
    refine .cons (hfg _ List.mem_cons_self _ hxy) (ih fun x hx => ?_)
    exact hfg x (List.mem_cons_of_mem _ hx)

/-- What corresponds is at the same places. -/
theorem rel_getElem? (h : List.Forall₂ R xs ys) (i : Nat) : Option.Rel R xs[i]? ys[i]? := by
  induction h generalizing i with
  | nil => exact .none
  | cons hxy _ ih =>
    cases i with
    | zero => exact .some hxy
    | succ i => exact ih i

/-- Tests that agree come out alike. -/
theorem any_eq_of_rel {p : α → Bool} {q : β → Bool} {o : Option α} {o' : Option β}
    (hpq : ∀ x y, R x y → p x = q y) (h : Option.Rel R o o') : o.any p = o'.any q := by
  cases h with
  | none => rfl
  | some hxy => exact hpq _ _ hxy

/-- What is there on both sides is the same in a respect in which it is the same. -/
theorem map_eq_of_rel {f : α → γ} {g : β → γ} {o : Option α} {o' : Option β}
    (hfg : ∀ x y, R x y → f x = g y) (h : Option.Rel R o o') : o.map f = o'.map g := by
  cases h with
  | none => rfl
  | some hxy => exact congrArg some (hfg _ _ hxy)

/-- Lists that correspond are empty together. -/
theorem isEmpty_eq_of_forall₂ (h : List.Forall₂ R xs ys) : xs.isEmpty = ys.isEmpty := by
  cases h <;> rfl

/-- They are numbered alike. -/
theorem forall₂_zipIdx (h : List.Forall₂ R xs ys) (k : Nat) :
    List.Forall₂ (fun e e' => R e.1 e'.1 ∧ e.2 = e'.2) (xs.zipIdx k) (ys.zipIdx k) := by
  induction h generalizing k with
  | nil => exact .nil
  | cons hxy _ ih => exact .cons ⟨hxy, rfl⟩ (ih (k + 1))

end Related

/-! ### Other spellings -/

/-- Two attributes whose keys are the same in lower case and whose values are the same. -/
def RespeltKey (a a' : String × Value) : Prop := lower a.1 = lower a'.1 ∧ a.2 = a'.2

/-- Two elements that differ in the spelling of names and of keys only. No element has a key twice,
and the attributes stand in the same order. -/
inductive Respelt : Node → Node → Prop
  | intro {n n' : Node} (name : lower n.name = lower n'.name)
    (attributes : List.Forall₂ RespeltKey n.attributes n'.attributes)
    (keys : (n.attributes.map (·.1)).Nodup) (keys' : (n'.attributes.map (·.1)).Nodup)
    (text : n.text = n'.text) (slot : n.slot = n'.slot)
    (children : List.Forall₂ Respelt n.children n'.children) : Respelt n n'

/-- Attributes that stand at the same place in two elements. -/
def Paired (n n' : Node) (a a' : String × Value) : Prop := (a, a') ∈ n.attributes.zip n'.attributes

namespace Respelt

variable {n n' : Node} {a a' b b' : String × Value}

/-- The names are the same in lower case. -/
theorem name (h : Respelt n n') : lower n.name = lower n'.name := by
  cases h
  assumption

/-- The attributes correspond, one by one. -/
theorem attributes (h : Respelt n n') : List.Forall₂ RespeltKey n.attributes n'.attributes := by
  cases h
  assumption

/-- The texts are the same. -/
theorem text (h : Respelt n n') : n.text = n'.text := by
  cases h
  assumption

/-- The types and the instances are the same. -/
theorem slot (h : Respelt n n') : n.slot = n'.slot := by
  cases h
  assumption

/-- The children correspond, one by one. -/
theorem children (h : Respelt n n') : List.Forall₂ Respelt n.children n'.children := by
  cases h
  assumption

/-- They go by the same names. -/
theorem sameName_eq (h : Respelt n n') (name : String) :
    sameName n.name name = sameName n'.name name := by
  rw [sameName, sameName, h.name]

/-- A pair of attributes is one respelt. -/
theorem respeltKey (h : Respelt n n') (hab : Paired n n' a a') : RespeltKey a a' :=
  List.forall₂_zip h.attributes hab

/-- The attributes are paired, one by one. -/
theorem forall₂_paired (h : Respelt n n') :
    List.Forall₂ (Paired n n') n.attributes n'.attributes :=
  List.forall₂_iff_zip.2 ⟨h.attributes.length_eq, id⟩

/-- A key tells the places of attributes apart, in either spelling. -/
theorem key_eq_iff (h : Respelt n n') (ha : Paired n n' a a') (hb : Paired n n' b b') :
    a.1 = b.1 ↔ a'.1 = b'.1 := by
  cases h with
  | intro _ _ keys keys' =>
    obtain ⟨i, hi, hia⟩ := List.mem_iff_getElem.1 ha
    obtain ⟨j, hj, hjb⟩ := List.mem_iff_getElem.1 hb
    rw [List.getElem_zip, Prod.mk.injEq] at hia hjb
    obtain ⟨rfl, rfl⟩ := hia
    obtain ⟨rfl, rfl⟩ := hjb
    have hbounds : ∀ {k}, k < (n.attributes.zip n'.attributes).length →
        k < (n.attributes.map (·.1)).length ∧ k < (n'.attributes.map (·.1)).length := by
      intro k hk
      rw [List.length_zip, Nat.lt_min] at hk
      simpa using hk
    obtain ⟨hi₁, hi₂⟩ := hbounds hi
    obtain ⟨hj₁, hj₂⟩ := hbounds hj
    have hplace : (n.attributes.map (·.1))[i] = (n.attributes.map (·.1))[j] ↔ i = j :=
      keys.getElem_inj_iff
    have hplace' : (n'.attributes.map (·.1))[i] = (n'.attributes.map (·.1))[j] ↔ i = j :=
      keys'.getElem_inj_iff
    rw [List.getElem_map, List.getElem_map] at hplace hplace'
    rw [hplace, hplace']

end Respelt

namespace Taken

/-- The same is taken of two elements: attributes at the same places and the same children. -/
structure Corresponds (n n' : Node) (c c' : Taken) : Prop where
  attributes : ∀ a a', Paired n n' a a' → (a.1 ∈ c.attributes ↔ a'.1 ∈ c'.attributes)
  children : c.children = c'.children

namespace Corresponds

variable {n n' : Node} {c c' : Taken}

/-! ### Attributes -/

/-- The free attributes correspond. -/
theorem freeAttributes (hn : Respelt n n') (h : Corresponds n n' c c') :
    List.Forall₂ (Paired n n') (c.freeAttributes n) (c'.freeAttributes n') := by
  refine forall₂_filter ?_ hn.forall₂_paired
  intro a a' ha
  simp [h.attributes a a' ha]

/-- So does the attribute by a name. -/
theorem attributeNamed (hn : Respelt n n') (h : Corresponds n n' c c') (name : String) :
    Option.Rel (Paired n n') (c.attributeNamed n name) (c'.attributeNamed n' name) := by
  refine rel_find? ?_ (List.rel_reverse (h.freeAttributes hn))
  intro a a' ha
  rw [sameName, sameName, (hn.respeltKey ha).1]

/-- So does the one that is to be seen. -/
theorem peekAttribute (hn : Respelt n n') (h : Corresponds n n' c c') (names : List String) :
    Option.Rel (Paired n n') (c.peekAttribute n names) (c'.peekAttribute n' names) := by
  induction names with
  | nil => exact .none
  | cons name names ih =>
    have hname := h.attributeNamed hn name
    rw [Taken.peekAttribute, Taken.peekAttribute, List.findSome?_cons, List.findSome?_cons]
    generalize c.attributeNamed n name = o, c'.attributeNamed n' name = o' at hname
    cases hname with
    | none => exact ih
    | some ha => exact .some ha

/-- Marking attributes that are paired keeps the correspondence. -/
theorem markAttribute (hn : Respelt n n') (h : Corresponds n n' c c') {a a' : String × Value}
    (ha : Paired n n' a a') : Corresponds n n' (c.markAttribute a.1) (c'.markAttribute a'.1) where
  attributes b b' hb := by
    rw [mem_attributes_markAttribute, mem_attributes_markAttribute, h.attributes b b' hb,
      hn.key_eq_iff hb ha]
  children := by rw [children_markAttribute, children_markAttribute, h.children]

/-- Names find and take attributes at the same place, or none. -/
theorem takeAttribute (hn : Respelt n n') (h : Corresponds n n' c c') (names : List String) :
    Option.Rel (Paired n n') (c.takeAttribute n names).1 (c'.takeAttribute n' names).1 ∧
      Corresponds n n' (c.takeAttribute n names).2 (c'.takeAttribute n' names).2 := by
  have hpeek := h.peekAttribute hn names
  unfold Taken.takeAttribute
  generalize c.peekAttribute n names = o, c'.peekAttribute n' names = o' at hpeek
  cases hpeek with
  | none => exact ⟨.none, h⟩
  | some ha => exact ⟨.some ha, h.markAttribute hn ha⟩

/-! ### Children -/

/-- Children at the same place, in either spelling. -/
def SamePlace (e e' : Node × Nat) : Prop := Respelt e.1 e'.1 ∧ e.2 = e'.2

/-- The free children correspond, at the same places. -/
theorem freeChildren (hn : Respelt n n') (h : Corresponds n n' c c') :
    List.Forall₂ SamePlace (c.freeChildren n) (c'.freeChildren n') := by
  refine forall₂_filter ?_ (forall₂_zipIdx hn.children 0)
  rintro e e' ⟨_, hplace⟩
  rw [h.children, hplace]

/-- So do those by a name. -/
theorem childrenNamed (hn : Respelt n n') (h : Corresponds n n' c c') (name : String) :
    List.Forall₂ SamePlace (c.childrenNamed n name) (c'.childrenNamed n' name) := by
  refine forall₂_filter ?_ (h.freeChildren hn)
  rintro e e' ⟨hrespelt, _⟩
  rw [hrespelt.sameName_eq]

/-- So do those that are to be seen. -/
theorem peekChildren (hn : Respelt n n') (h : Corresponds n n' c c') (names : List String) :
    List.Forall₂ SamePlace (c.peekChildren n names) (c'.peekChildren n' names) := by
  induction names with
  | nil => exact .nil
  | cons name names ih =>
    have hname := h.childrenNamed hn name
    rw [Taken.peekChildren, Taken.peekChildren, isEmpty_eq_of_forall₂ hname]
    split
    · exact ih
    · exact hname

/-- Marking the same places keeps the correspondence. -/
theorem markChildren (h : Corresponds n n' c c') (is : List Nat) :
    Corresponds n n' (c.markChildren is) (c'.markChildren is) where
  attributes a a' ha := by
    rw [attributes_markChildren, attributes_markChildren, h.attributes a a' ha]
  children := by
    have hmark : ∀ c c' : Taken, c.children = c'.children →
        (c.markChildren is).children = (c'.markChildren is).children := by
      induction is with
      | nil => exact fun _ _ hc => hc
      | cons i is ih =>
        intro c c' hc
        refine ih (c.markChild i) (c'.markChild i) ?_
        unfold markChild
        rw [hc]
        split
        · exact hc
        · rfl
    exact hmark c c' h.children

/-- Names find and take children at the same places. -/
theorem takeChildren (hn : Respelt n n') (h : Corresponds n n' c c') (names : List String)
    (firstOnly : Bool) :
    List.Forall₂ SamePlace (c.takeChildren n names firstOnly).1
        (c'.takeChildren n' names firstOnly).1 ∧
      Corresponds n n' (c.takeChildren n names firstOnly).2
        (c'.takeChildren n' names firstOnly).2 := by
  have hpeek := h.peekChildren hn names
  have hchosen : List.Forall₂ SamePlace
      (if firstOnly then (c.peekChildren n names).take 1 else c.peekChildren n names)
      (if firstOnly then (c'.peekChildren n' names).take 1 else c'.peekChildren n' names) := by
    cases firstOnly with
    | true => exact List.forall₂_take 1 hpeek
    | false => exact hpeek
  refine ⟨hchosen, ?_⟩
  have hplaces := map_eq_of_forall₂ (f := Prod.snd) (g := Prod.snd) (fun _ _ he => he.2) hchosen
  unfold Taken.takeChildren
  dsimp only
  rw [hplaces]
  exact h.markChildren _

/-! ### Beginning and end -/

/-- Reserved names set aside the same children. -/
theorem reserving (hn : Respelt n n') (reserved : List String) :
    Corresponds n n' (.reserving n reserved) (.reserving n' reserved) where
  attributes _ _ _ := by simp [Taken.reserving]
  children := by
    refine map_eq_of_forall₂ (R := SamePlace) (fun _ _ he => he.2) ?_
    refine forall₂_filter ?_ (forall₂_zipIdx hn.children 0)
    rintro e e' ⟨hrespelt, _⟩
    rw [hrespelt.name]

/-- As many diagnostics report what is left over, of the same kinds. -/
theorem kinds_leftovers (hn : Respelt n n') (h : Corresponds n n' c c') (deferChildren : Bool) :
    (c.leftovers n deferChildren).map (·.kind) = (c'.leftovers n' deferChildren).map (·.kind) := by
  have hattributes : (c.unusedAttributes n).map (·.kind) =
      (c'.unusedAttributes n').map (·.kind) := by
    have hfree := h.freeAttributes hn
    rw [unusedAttributes_eq, unusedAttributes_eq]
    generalize c.freeAttributes n = as, c'.freeAttributes n' = as' at hfree
    cases hfree <;> rfl
  have hchildren : (c.unusedChildren n).map (·.kind) = (c'.unusedChildren n').map (·.kind) := by
    rw [unusedChildren, unusedChildren, List.map_map, List.map_map]
    exact map_eq_of_forall₂ (fun _ _ _ => rfl) (h.freeChildren hn)
  rw [leftovers, leftovers, List.map_append, List.map_append, hattributes]
  split
  · rfl
  · rw [hchildren]

end Corresponds
end Taken
end ConfigAssembly
