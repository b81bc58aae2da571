import Mathlib.Data.List.Flatten
import ConfigAssembly.Proofs.Document.Linked
import ConfigAssembly.Proofs.Document.Nesting

/-!
# The elements of finite content

`PlainTree.Shows` says how an element shows the content it was read from: the scalar entries of a
mapping are its attributes, the other entries are its children, by themselves or item by item, and a
scalar is its text. For finite content whose keys differ as texts, reading gives an element that
shows it (`shows_of_ofContent`), with each scalar at one place (`Shows.inscriptions_perm`), or a
fault that the content accounts for: a sequence as an item of a sequence, or an integer that is too
long to be written (`fault_of_ofContent`).
-/

namespace ConfigAssembly

namespace Content

/-! ### The scalars of content -/

mutual

/-- The scalars in the content of an element, in order: each with the name of the element that it
belongs to, and with its key if it is the value of an entry. -/
def scalars (name : String) : Content → List (String × Option String × String)
  | .scalar .null => []
  | .scalar v => [(name, none, v.word)]
  | .sequence items => itemScalars name items
  | .mapping es => entryScalars name es
  | .againSequence => []
  | .againMapping => []

/-- The scalars in the items of a sequence, each item the content of an element. -/
def itemScalars (name : String) : List Content → List (String × Option String × String)
  | [] => []
  | c :: cs => scalars name c ++ itemScalars name cs

/-- The scalars in the entries of an element. -/
def entryScalars (name : String) :
    List (Value × Content) → List (String × Option String × String)
  | [] => []
  | (_, .scalar .null) :: es => entryScalars name es
  | (k, .scalar v) :: es => (name, some k.text, v.word) :: entryScalars name es
  | (k, .sequence items) :: es => itemScalars k.text items ++ entryScalars name es
  | (k, .mapping inner) :: es => entryScalars k.text inner ++ entryScalars name es
  | (_, .againSequence) :: es => entryScalars name es
  | (_, .againMapping) :: es => entryScalars name es

end

/-- A scalar by itself. -/
theorem scalars_scalar (name : String) {v : Value} (hv : v ≠ .null) :
    scalars name (.scalar v) = [(name, none, v.word)] := by
  cases v <;> first | rfl | exact absurd rfl hv

/-- The scalars of items, one item after the other. -/
theorem itemScalars_eq (name : String) (cs : List Content) :
    itemScalars name cs = cs.flatMap (scalars name) := by
  induction cs with
  | nil => rfl
  | cons c cs ih => rw [itemScalars, ih, List.flatMap_cons]

/-- Those of an entry are in its attributes and in its elements. -/
theorem entryScalars_cons (name : String) (e : Value × Content) (es : List (Value × Content)) :
    entryScalars name (e :: es) =
      (entryAttributes e).map (fun a => (name, some a.1, a.2)) ++
        (entryElements e).flatMap (fun d => scalars d.1 d.2) ++ entryScalars name es := by
  obtain ⟨k, c⟩ := e
  cases c with
  | scalar v => cases v <;> rfl
  | sequence items =>
    rw [entryScalars, itemScalars_eq, entryElements, List.flatMap_map]
    rfl
  | mapping inner =>
    rw [entryScalars, entryElements, List.flatMap_singleton, scalars]
    rfl
  | againSequence => rfl
  | againMapping => rfl

/-- The scalars of a mapping are those of its attributes and those of the elements below. -/
theorem entryScalars_perm (name : String) (es : List (Value × Content)) :
    (entryScalars name es).Perm
      ((es.flatMap entryAttributes).map (fun a => (name, some a.1, a.2)) ++
        (es.flatMap entryElements).flatMap fun d => scalars d.1 d.2) := by
  induction es with
  | nil => exact .nil
  | cons e es ih =>
    rw [entryScalars_cons, List.flatMap_cons, List.flatMap_cons, List.map_append,
      List.flatMap_append, List.append_assoc, List.append_assoc]
    exact .append_left _ ((ih.append_left _).trans (List.perm_append_comm_assoc _ _ _))

end Content

namespace PlainTree

open Content

/-! ### Reading one entry -/

/-- An entry is read if its key can be written and its part is read. -/
theorem readEntry_eq_ok_iff {e : Value × Content} {p : Part} :
    readEntry e = .ok p ↔ e.1.isTooLong = false ∧ readPart e.1.text e.2 = .ok p := by
  rw [readEntry, keyText_eq]
  cases e.1.isTooLong <;> simp [bind, Except.bind]

/-- It is not read if its key cannot be written, or if its part is not read. -/
theorem readEntry_eq_error_iff {e : Value × Content} {f : ShapeFault} :
    readEntry e = .error f ↔
      e.1.isTooLong = true ∧ f = .longInteger ∨
        e.1.isTooLong = false ∧ readPart e.1.text e.2 = .error f := by
  rw [readEntry, keyText_eq]
  cases e.1.isTooLong <;> simp [bind, Except.bind, eq_comm]

/-! ### The fault of content -/

/-- What is wrong with an entry is an integer in its key or in its scalar, or what is wrong with an
element that it is. -/
theorem fault_of_readEntry {e : Value × Content} {f : ShapeFault} (h : readEntry e = .error f)
    (hfinite : e.2.isAgain = false) :
    f = .longInteger ∧ (e.1.isTooLong = true ∨ ∃ v, e.2 = .scalar v ∧ v.isTooLong = true) ∨
      ∃ d ∈ entryElements e, ofContent d.1 d.2 = .error f := by
  obtain ⟨k, c⟩ := e
  rcases readEntry_eq_error_iff.1 h with ⟨hk, hf⟩ | ⟨_, hpart⟩
  · exact .inl ⟨hf, .inl hk⟩
  · dsimp only at hfinite hpart ⊢
    cases c with
    | againSequence => cases hfinite
    | againMapping => cases hfinite
    | sequence items =>
      rw [readPart, map_eq_error_iff] at hpart
      obtain ⟨c, hc, hfault⟩ := exists_of_mapM_eq_error hpart
      exact .inr ⟨(k.text, c), List.mem_map_of_mem hc, hfault⟩
    | mapping inner =>
      rw [readPart, map_eq_error_iff] at hpart
      exact .inr ⟨(k.text, .mapping inner), List.mem_cons_self, hpart⟩
    | scalar v =>
      by_cases hnull : v = .null
      · rw [hnull] at hpart
        cases hpart
      · rw [readPart_scalar _ hnull, map_eq_error_iff, scalarText_eq_error_iff] at hpart
        exact .inl ⟨hpart.2, .inr ⟨v, rfl, hpart.1⟩⟩

/-- What is wrong with content: a sequence is the content of an element, or an integer is too long
to be written. -/
theorem fault_of_ofContent {name : String} {c : Content} {f : ShapeFault}
    (h : ofContent name c = .error f) (hfinite : c.Finite) :
    (∃ element, f = .sequenceAt element) ∧ c.Nested ∨ f = .longInteger ∧ ¬ c.Writable := by
  induction c using element_induction generalizing name with
  | step c ih =>
    cases c with
    | againSequence => cases hfinite.self
    | againMapping => cases hfinite.self
    | sequence items =>
      cases h
      exact .inl ⟨⟨name, rfl⟩, .inl rfl⟩
    | scalar v =>
      have hnull : v ≠ .null := by
        rintro rfl
        cases h
      rw [ofContent_scalar name hnull, map_eq_error_iff, scalarText_eq_error_iff] at h
      refine .inr ⟨h.2, fun hwritable => ?_⟩
      exact absurd (h.1.symm.trans (everywhere_scalar.1 hwritable)) (by decide)
    | mapping es =>
      rw [ofContent_mapping, map_eq_error_iff] at h
      obtain ⟨e, he, hentry⟩ := exists_of_mapM_eq_error h
      have hagain : e.2.isAgain = false := (hfinite.of_holds (.entry he)).self
      rcases fault_of_readEntry hentry hagain with ⟨rfl, hlong⟩ | ⟨d, hd, hfault⟩
      · refine .inr ⟨rfl, fun hwritable => ?_⟩
        obtain ⟨hkey, hvalue⟩ := hwritable.entry he
        rcases hlong with hlong | ⟨v, hv, hlong⟩
        · exact absurd (hlong.symm.trans hkey) (by decide)
        · exact absurd (hlong.symm.trans (hvalue v hv)) (by decide)
      · have hmem : d ∈ (mapping es).elements := List.mem_flatMap.2 ⟨e, he, hd⟩
        rcases ih d hmem hfault (hfinite.element hmem) with ⟨hf, hnested⟩ | ⟨hf, hlong⟩
        · exact .inl ⟨hf, hnested.of_element hmem⟩
        · exact .inr ⟨hf, fun hwritable => hlong (hwritable.element hmem)⟩

/-! ### The element of content -/

/-- An element shows content: nothing is shown by an element with nothing in it, a scalar by the
text of its element, and a mapping by the attributes and the children that its entries are, in
order. -/
inductive Shows : String → Content → PlainTree → Prop where
  | nothing {name : String} : Shows name (.scalar .null) (empty name)
  | text {name : String} {v : Value} (h : v ≠ .null) :
    Shows name (.scalar v) ⟨name, [], some v.word, (), []⟩
  | mapping {name : String} {es : List (Value × Content)} {ts : List PlainTree}
    (h : List.Forall₂ (fun d t => Shows d.1 d.2 t) (es.flatMap entryElements) ts) :
    Shows name (.mapping es) ⟨name, es.flatMap entryAttributes, none, (), ts⟩

/-- An entry that is read is legible, and is the attributes and the elements that it should be. -/
theorem of_readEntry {e : Value × Content} {p : Part} (h : readEntry e = .ok p) :
    Legible e ∧ p.attributes = entryAttributes e ∧
      List.Forall₂ (fun d t => ofContent d.1 d.2 = .ok t) (entryElements e) p.children := by
  obtain ⟨k, c⟩ := e
  obtain ⟨hk, hpart⟩ := readEntry_eq_ok_iff.1 h
  dsimp only at hk hpart
  cases c with
  | againSequence => cases hpart
  | againMapping => cases hpart
  | sequence items =>
    have hscalar : ∀ v, Content.sequence items = .scalar v → v.isTooLong = false := by
      rintro v ⟨⟩
    rw [readPart, map_eq_ok_iff] at hpart
    obtain ⟨ts, hts, rfl⟩ := hpart
    exact ⟨⟨hk, hscalar, rfl⟩, rfl, List.forall₂_map_left_iff.2 (mapM_eq_ok_iff.1 hts)⟩
  | mapping inner =>
    have hscalar : ∀ v, Content.mapping inner = .scalar v → v.isTooLong = false := by
      rintro v ⟨⟩
    rw [readPart, map_eq_ok_iff] at hpart
    obtain ⟨t, ht, rfl⟩ := hpart
    exact ⟨⟨hk, hscalar, rfl⟩, rfl, .cons ht .nil⟩
  | scalar v =>
    by_cases hnull : v = .null
    · subst hnull
      cases hpart
      refine ⟨⟨hk, ?_, rfl⟩, rfl, .cons rfl .nil⟩
      rintro v ⟨⟩
      rfl
    · rw [readPart_scalar _ hnull, map_eq_ok_iff] at hpart
      obtain ⟨s, hs, rfl⟩ := hpart
      obtain ⟨hv, rfl⟩ := scalarText_eq_ok_iff.1 hs
      refine ⟨⟨hk, ?_, rfl⟩, (entryAttributes_scalar k hnull).symm, ?_⟩
      · rintro v' ⟨⟩
        exact hv
      · rw [entryElements_scalar k hnull]
        exact .nil

/-- The keys of the attributes of a mapping are among its keys, in order. -/
theorem keys_attributes_sublist (es : List (Value × Content)) :
    ((es.flatMap entryAttributes).map (·.1)).Sublist (es.map fun e => e.1.text) := by
  induction es with
  | nil => exact .slnil
  | cons e es ih =>
    rw [List.flatMap_cons, List.map_append, List.map_cons, ← List.singleton_append]
    refine .append ?_ ih
    unfold entryAttributes
    split
    · exact List.nil_sublist _
    · exact .refl _
    · exact List.nil_sublist _

/-- Parts put together are what the entries put together are. -/
theorem flatMap_parts {R : String × Content → PlainTree → Prop} {es : List (Value × Content)}
    {ps : List Part}
    (h : List.Forall₂ (fun e p => p.attributes = entryAttributes e ∧
      List.Forall₂ R (entryElements e) p.children) es ps) :
    ps.flatMap Part.attributes = es.flatMap entryAttributes ∧
      List.Forall₂ R (es.flatMap entryElements) (ps.flatMap Part.children) := by
  induction h with
  | nil => exact ⟨rfl, .nil⟩
  | cons hp _ ih =>
    simp only [List.flatMap_cons]
    exact ⟨by rw [hp.1, ih.1], List.rel_append hp.2 ih.2⟩

/-- The parts of a mapping that is read. -/
theorem parts_of_ofContent {name : String} {es : List (Value × Content)} {t : PlainTree}
    (h : ofContent name (.mapping es) = .ok t) :
    (∀ e ∈ es, Legible e) ∧ ∃ ps, t = ps.foldl withPart (empty name) ∧
      List.Forall₂ (fun e p => p.attributes = entryAttributes e ∧
          List.Forall₂ (fun d t => ofContent d.1 d.2 = .ok t) (entryElements e) p.children)
        es ps := by
  rw [ofContent_mapping, map_eq_ok_iff] at h
  obtain ⟨ps, hread, rfl⟩ := h
  obtain ⟨hlegible, hparts⟩ := (List.forall₂_and_left es ps).1
    ((mapM_eq_ok_iff.1 hread).imp fun e p => of_readEntry)
  exact ⟨hlegible, ps, rfl, hparts⟩

/-- The elements below one that is read are read. -/
theorem exists_of_mem_elements {name : String} {es : List (Value × Content)} {t : PlainTree}
    (h : ofContent name (.mapping es) = .ok t) {d : String × Content}
    (hd : d ∈ (Content.mapping es).elements) : ∃ t, ofContent d.1 d.2 = .ok t := by
  obtain ⟨_, ps, _, hparts⟩ := parts_of_ofContent h
  have hread : List.Forall₂
      (fun d t => (∃ t, ofContent d.1 d.2 = .ok t) ∧ ofContent d.1 d.2 = .ok t)
      (es.flatMap entryElements) (ps.flatMap Part.children) :=
    (flatMap_parts hparts).2.imp fun d t ht => ⟨⟨t, ht⟩, ht⟩
  exact ((List.forall₂_and_left _ _).1 hread).1 d hd

/-- The element of a mapping whose keys differ has the attributes and the children that its entries
are. -/
theorem of_ofContent_mapping {name : String} {es : List (Value × Content)} {t : PlainTree}
    (h : ofContent name (.mapping es) = .ok t) (hkeys : (mapping es).KeysDiffer) :
    ∃ ts, t = ⟨name, es.flatMap entryAttributes, none, (), ts⟩ ∧
      List.Forall₂ (fun d t => ofContent d.1 d.2 = .ok t) (es.flatMap entryElements) ts := by
  obtain ⟨_, ps, rfl, hparts⟩ := parts_of_ofContent h
  obtain ⟨hattributes, hchildren⟩ := flatMap_parts hparts
  have hnodup : ((es.flatMap entryAttributes).map (·.1)).Nodup :=
    hkeys.sublist (keys_attributes_sublist es)
  refine ⟨ps.flatMap Part.children, ?_, hchildren⟩
  rw [foldl_withPart, hattributes]
  change Tree.mk name (Assoc.ofList _) none () ([] ++ _) = _
  rw [Assoc.ofList_of_nodup hnodup, List.nil_append]

/-- An element that is read shows its content. -/
theorem shows_of_ofContent {name : String} {c : Content} {t : PlainTree}
    (h : ofContent name c = .ok t) (hkeys : c.Distinct) : Shows name c t := by
  induction c using element_induction generalizing name t with
  | step c ih =>
    cases c with
    | againSequence => cases h
    | againMapping => cases h
    | sequence items => cases h
    | scalar v =>
      by_cases hnull : v = .null
      · subst hnull
        cases h
        exact .nothing
      · rw [ofContent_scalar name hnull, map_eq_ok_iff] at h
        obtain ⟨s, hs, rfl⟩ := h
        obtain ⟨_, rfl⟩ := scalarText_eq_ok_iff.1 hs
        exact .text hnull
    | mapping es =>
      obtain ⟨ts, rfl, hts⟩ := of_ofContent_mapping h hkeys.self
      have hmem := (List.forall₂_and_left _ ts).2 ⟨fun d hd => hd, hts⟩
      exact .mapping (hmem.imp fun d t ⟨hd, ht⟩ => ih d hd ht (hkeys.element hd))

/-- A condition is met everywhere in content that is read if it is met by the mappings that are
read, by the scalars that can be written, and by sequences. -/
theorem everywhere_of_ofContent {P : Content → Prop}
    (hscalar : ∀ v : Value, v.isTooLong = false → P (.scalar v))
    (hsequence : ∀ items, P (.sequence items))
    (hmapping : ∀ es, (∀ e ∈ es, Legible e) → P (.mapping es)) {name : String} {c : Content}
    {t : PlainTree} (h : ofContent name c = .ok t) : c.Everywhere P := by
  induction c using element_induction generalizing name t with
  | step c ih =>
    cases c with
    | againSequence => cases h
    | againMapping => cases h
    | sequence items => cases h
    | scalar v =>
      refine everywhere_scalar.2 (hscalar v ?_)
      by_cases hnull : v = .null
      · rw [hnull]
        rfl
      · rw [ofContent_scalar name hnull, map_eq_ok_iff] at h
        obtain ⟨s, hs, _⟩ := h
        exact (scalarText_eq_ok_iff.1 hs).1
    | mapping es =>
      have hlegible := (parts_of_ofContent h).1
      refine everywhere_of_elements (hmapping es hlegible)
        (fun e he v hv => hscalar v ((hlegible e he).scalar v hv)) hsequence hlegible fun d hd => ?_
      obtain ⟨t, ht⟩ := exists_of_mem_elements h hd
      exact ih d hd ht

/-- Content that is read can be written. -/
theorem writable_of_ofContent {name : String} {c : Content} {t : PlainTree}
    (h : ofContent name c = .ok t) : c.Writable :=
  everywhere_of_ofContent (fun _ => id) (fun _ => trivial) (fun _ hes e he => (hes e he).key) h

/-- Content that is read is finite. -/
theorem finite_of_ofContent {name : String} {c : Content} {t : PlainTree}
    (h : ofContent name c = .ok t) : c.Finite :=
  everywhere_of_ofContent (fun _ _ => rfl) (fun _ => rfl) (fun _ _ => rfl) h

/-- Content that is read has no sequence in a sequence. -/
theorem not_nested_of_ofContent {name : String} {c : Content} {t : PlainTree}
    (h : ofContent name c = .ok t) : ¬ c.Nested := by
  induction c using element_induction generalizing name t with
  | step c ih =>
    intro hnested
    rcases exists_element_of_nested hnested with hseq | ⟨d, hd, hbelow⟩
    · cases c <;> first | cases h | cases hseq
    · cases c with
      | mapping es =>
        obtain ⟨t, ht⟩ := exists_of_mem_elements h hd
        exact ih d hd ht hbelow
      | _ => cases hd

/-! ### The texts of an element -/

/-- The texts in a tree: each with the name of its element, and with its key if it is an
attribute. -/
def inscriptions (t : PlainTree) : List (String × Option String × String) :=
  t.walk.flatMap fun e =>
    e.attributes.map (fun a => (e.name, some a.1, a.2)) ++
      e.text.toList.map fun s => (e.name, none, s)

/-- The inscriptions of an element are those of its children and its own. -/
theorem inscriptions_eq (t : PlainTree) :
    inscriptions t = t.children.flatMap inscriptions ++
      (t.attributes.map (fun a => (t.name, some a.1, a.2)) ++
        t.text.toList.map fun s => (t.name, none, s)) := by
  rw [inscriptions, Tree.walk_eq, Tree.walkAll_eq, List.flatMap_append, List.flatMap_singleton,
    List.flatMap_assoc]
  rfl

/-- Lists that are put together of pieces with the same members have the same members. -/
theorem flatMap_perm {α β γ : Type} {f : α → List γ} {g : β → List γ} {xs : List α} {ys : List β}
    (h : List.Forall₂ (fun x y => (g y).Perm (f x)) xs ys) :
    (ys.flatMap g).Perm (xs.flatMap f) := by
  induction h with
  | nil => exact .nil
  | cons hxy _ ih => exact hxy.append ih

/-- An element that shows content has each of its scalars at one place. -/
theorem Shows.inscriptions_perm {name : String} {c : Content} {t : PlainTree} (h : Shows name c t) :
    (inscriptions t).Perm (c.scalars name) := by
  induction c using element_induction generalizing name t with
  | step c ih =>
    cases h with
    | nothing => exact .nil
    | text hnull =>
      rw [scalars_scalar name hnull]
      exact .refl _
    | @mapping _ es ts hts =>
      have hmem := (List.forall₂_and_left _ ts).2 ⟨fun d hd => hd, hts⟩
      have hbelow : (ts.flatMap inscriptions).Perm
          ((es.flatMap entryElements).flatMap fun d => d.2.scalars d.1) :=
        flatMap_perm (hmem.imp fun d t ⟨hd, ht⟩ => ih d hd ht)
      rw [inscriptions_eq, scalars]
      dsimp only [Option.toList_none]
      rw [List.map_nil, List.append_nil]
      exact (List.perm_append_comm.trans (hbelow.append_left _)).trans
        (entryScalars_perm name es).symm

/-! ### Reading finite content -/

/-- Finite content is read if it is no sequence, no sequence in it is an item of a sequence, and all
of it can be written. -/
theorem exists_ofContent_iff (name : String) {c : Content} (hfinite : c.Finite) :
    (∃ t, ofContent name c = .ok t) ↔ ¬ c.Nested ∧ c.Writable := by
  constructor
  · rintro ⟨t, h⟩
    exact ⟨not_nested_of_ofContent h, writable_of_ofContent h⟩
  · rintro ⟨hnested, hwritable⟩
    cases h : ofContent name c with
    | ok t => exact ⟨t, rfl⟩
    | error f =>
      rcases fault_of_ofContent h hfinite with ⟨_, hf⟩ | ⟨_, hf⟩
      · exact absurd hf hnested
      · exact absurd hwritable hf

/-- If all of it can be written, it is refused as a sequence exactly if it is one or a sequence in
it is an item of a sequence. -/
theorem exists_sequenceAt_iff (name : String) {c : Content} (hfinite : c.Finite)
    (hwritable : c.Writable) :
    (∃ element, ofContent name c = .error (.sequenceAt element)) ↔ c.Nested := by
  constructor
  · rintro ⟨element, h⟩
    rcases fault_of_ofContent h hfinite with ⟨_, hf⟩ | ⟨hf, _⟩
    · exact hf
    · cases hf
  · intro hnested
    cases h : ofContent name c with
    | ok t => exact absurd hnested (not_nested_of_ofContent h)
    | error f =>
      rcases fault_of_ofContent h hfinite with ⟨⟨element, rfl⟩, _⟩ | ⟨_, hf⟩
      · exact ⟨element, rfl⟩
      · exact absurd hwritable hf

end PlainTree

namespace LinkedTree

open Content PlainTree

/-- Finite content whose keys differ as texts is loaded if it is no sequence, no sequence in it is
an item of a sequence, and all of it can be written. If all of it can be written, it is refused as a
sequence exactly if it is one or a sequence in it is an item of a sequence. The element that is
loaded shows the content, the elements differ in their numbers, every element but the root refers to
the one that has it as a child, and each scalar of the content is at one place in the tree. -/
theorem ofContent_shows {name : String} {c : Content} (hfinite : c.Finite) (hkeys : c.Distinct) :
    ((∃ t, ofContent name c = .ok t) ↔ ¬ c.Nested ∧ c.Writable) ∧
    (c.Writable →
      ((∃ element, ofContent name c = .error (.sequenceAt element)) ↔ c.Nested)) ∧
    ∀ t, ofContent name c = .ok t →
      Shows name c t.plain ∧ t.Parented ∧ (inscriptions t.plain).Perm (c.scalars name) := by
  refine ⟨?_, fun hwritable => ?_, fun t h => ?_⟩
  · rw [← exists_ofContent_iff name hfinite, ← ofContent_eq]
    cases ofContent name c <;> simp [Except.map]
  · rw [← exists_sequenceAt_iff name hfinite hwritable, ← ofContent_eq]
    cases ofContent name c <;> simp [Except.map]
  · have hshows := shows_of_ofContent (plain_of_ofContent h) hkeys
    exact ⟨hshows, parented_of_ofContent h, hshows.inscriptions_perm⟩

/-- A mapping with a scalar, a sequence of what an element can hold, and nothing. -/
private def plant : Content :=
  .mapping [(.str "site", .scalar (.str "north")),
    (.str "Pump", .sequence [.mapping [(.bool true, .scalar (.bool true))], .scalar (.str "spare"),
      .scalar .null]),
    (.str "Log", .scalar .null)]

private def plantTree : LinkedTree String :=
  ⟨"Plant", [("site", "north")], none, ⟨0, none⟩,
    [⟨"Pump", [("True", "true")], none, ⟨1, some 0⟩, []⟩,
      ⟨"Pump", [], some "spare", ⟨2, some 0⟩, []⟩, ⟨"Pump", [], none, ⟨3, some 0⟩, []⟩,
      ⟨"Log", [], none, ⟨4, some 0⟩, []⟩]⟩

/-- The plants of two sites, one in a sequence of its own. -/
private def plants : Content := .mapping [(.str "Plant", .sequence [plant, .sequence [plant]])]

/-- The items of the sequence are elements below the root, and the three scalars are two attributes
and a text. -/
theorem ofContent_shows_plant :
    ofContent "Plant" plant = .ok plantTree ∧ Shows "Plant" plant plantTree.plain ∧
      plantTree.Parented ∧ (inscriptions plantTree.plain).Perm
        [("Plant", some "site", "north"), ("Pump", some "True", "true"), ("Pump", none, "spare")] ∧
      ∃ element, ofContent "Plants" plants = .error (.sequenceAt element) := by
  have hfinite : plant.Finite := by
    simp [plant, Content.Finite, everywhere_mapping, everywhere_sequence, everywhere_scalar,
      isAgain]
  have hkeys : plant.Distinct := by
    simp [plant, Distinct, everywhere_mapping, everywhere_sequence, everywhere_scalar, KeysDiffer,
      Value.text]
  have hread : ofContent "Plant" plant = .ok plantTree := rfl
  obtain ⟨hshows, hparented, hperm⟩ := (ofContent_shows hfinite hkeys).2.2 plantTree hread
  have hfinites : plants.Finite := by
    simp [plants, plant, Content.Finite, everywhere_mapping, everywhere_sequence, everywhere_scalar,
      isAgain]
  have hkeyss : plants.Distinct := by
    simp [plants, plant, Distinct, everywhere_mapping, everywhere_sequence, everywhere_scalar,
      KeysDiffer, Value.text]
  have hwritables : plants.Writable := by
    simp [plants, plant, Writable, everywhere_mapping, everywhere_sequence, everywhere_scalar,
      Short]
  have hnested : plants.Nested :=
    .inr ⟨_, .sequence [plant], .single (.entry List.mem_cons_self), by simp, rfl⟩
  exact ⟨hread, hshows, hparented, hperm,
    ((ofContent_shows hfinites hkeyss).2.1 hwritables).2 hnested⟩

private def longNumber : Int := Int.ofNat (Nat.pow 10 Value.longestInteger)

/-- A mapping with a number that is too long to be written. -/
private def longContent : Content := .mapping [(.str "n", .scalar (.int longNumber))]

/-- Finite content without a sequence in a sequence need not be read. -/
theorem not_forall_ofContent_shows :
    ¬ ∀ (name : String) (c : Content), c.Finite → c.Distinct →
      ((∃ element, ofContent name c = .error (.sequenceAt element)) ↔ c.Nested) ∧
      (¬ c.Nested → ∃ t, ofContent name c = .ok t ∧ Shows name c t.plain) := by
  intro h
  have hfinite : longContent.Finite := by
    simp [longContent, Content.Finite, everywhere_mapping, everywhere_scalar, isAgain]
  have hkeys : longContent.Distinct := by
    simp [longContent, Distinct, everywhere_mapping, everywhere_scalar, KeysDiffer]
  have hnested : ¬ longContent.Nested := by
    intro hnested
    rcases exists_element_of_nested hnested with hseq | ⟨d, hd, _⟩
    · cases hseq
    · cases hd
  obtain ⟨t, ht, _⟩ := (h "A" longContent hfinite hkeys).2 hnested
  have hwritable := writable_of_ofContent (plain_of_ofContent ht)
  have hlong : (Value.int longNumber).isTooLong = true := by decide +kernel
  have hshort := (hwritable.entry List.mem_cons_self).2 (.int longNumber) rfl
  exact absurd (hlong.symm.trans hshort) (by decide)

end LinkedTree
end ConfigAssembly
