import Mathlib.Data.List.Nodup
import ConfigAssembly.Proofs.Taken.Delivery
import ConfigAssembly.Visitor

/-!
# Which of several names decides, and what it finds

An element is searched with several names, the aliases of an input before its own name. The first of
them that anything free goes by decides (`IsEarliest`). Of the children that go by it all are found
(`Taken.peekChildren_of_isEarliest`), of the attributes the last one
(`Taken.peekAttribute_of_isEarliest`). What goes by later names only is not touched: as long as
nobody takes it, it is found under a name of its own and reported in the end (`Taken.AttributeLeft`,
`Taken.ChildLeft`). `Taken.take_earliest` says all this of one search.
-/

namespace ConfigAssembly

open ConfigAssembly.Text

variable {α σ : Type}

/-! ### The name that decides -/

/-- A name is the first of several that one of some parts goes by. -/
def IsEarliest {β : Type} (title : β → String) (parts : List β) (names : List String)
    (x : String) : Prop :=
  ∃ before after, names = before ++ x :: after ∧
    (∃ p ∈ parts, sameName (title p) x = true) ∧
    ∀ y ∈ before, ∀ p ∈ parts, sameName (title p) y = false

/-- The earliest name is one of the names. -/
theorem IsEarliest.mem {β : Type} {title : β → String} {parts : List β} {names : List String}
    {x : String} (h : IsEarliest title parts names x) : x ∈ names := by
  obtain ⟨before, after, rfl, _⟩ := h
  simp

/-- Some name decides just if some part goes by one of the names. -/
theorem exists_isEarliest_iff {β : Type} {title : β → String} {parts : List β}
    {names : List String} :
    (∃ x, IsEarliest title parts names x) ↔
      ∃ p ∈ parts, ∃ y ∈ names, sameName (title p) y = true := by
  constructor
  · rintro ⟨x, hx⟩
    obtain ⟨_, _, _, ⟨p, hp, hsame⟩, _⟩ := id hx
    exact ⟨p, hp, x, hx.mem, hsame⟩
  · rintro ⟨p, hp, y, hy, hsame⟩
    have hfound : (names.find? fun y => parts.any fun p => sameName (title p) y).isSome := by
      rw [List.find?_isSome]
      exact ⟨y, hy, List.any_eq_true.2 ⟨p, hp, hsame⟩⟩
    obtain ⟨x, hx⟩ := Option.isSome_iff_exists.1 hfound
    obtain ⟨hany, before, after, hnames, hbefore⟩ := List.find?_eq_some_iff_append.1 hx
    refine ⟨x, before, after, hnames, by simpa using hany, ?_⟩
    intro y hy p hp
    have hnone := hbefore y hy
    simp only [Bool.not_eq_true', List.any_eq_false, Bool.not_eq_true] at hnone
    exact hnone p hp

namespace Taken

section Found

variable {n : Tree α σ} {c : Taken} {names : List String} {x : String}

/-- The free attributes that go by a name. -/
def attributesNamed (c : Taken) (n : Tree α σ) (name : String) : List (String × α) :=
  (c.freeAttributes n).filter fun a => sameName a.1 name

/-- The attributes by a name are those that are free and go by it. -/
theorem mem_attributesNamed {name : String} {a : String × α} :
    a ∈ c.attributesNamed n name ↔ a ∈ c.freeAttributes n ∧ sameName a.1 name = true :=
  List.mem_filter

/-- The children by a name are those that are free and go by it. -/
theorem mem_childrenNamed {name : String} {e : Tree α σ × Nat} :
    e ∈ c.childrenNamed n name ↔ e ∈ c.freeChildren n ∧ sameName e.1.name name = true :=
  List.mem_filter

/-- Of the attributes that go by a name the last one is found. -/
theorem attributeNamed_eq (c : Taken) (n : Tree α σ) (name : String) :
    c.attributeNamed n name = (c.attributesNamed n name).getLast? :=
  List.getLast?_filter.symm

/-- No attribute is found by a name that none goes by. -/
theorem attributeNamed_eq_none {name : String}
    (h : ∀ a ∈ c.freeAttributes n, sameName a.1 name = false) :
    c.attributeNamed n name = .none := by
  rw [attributeNamed_eq, List.getLast?_eq_none_iff, attributesNamed, List.filter_eq_nil_iff]
  intro a ha
  simp [h a ha]

/-- No child is found by a name that none goes by. -/
theorem childrenNamed_eq_nil {name : String}
    (h : ∀ e ∈ c.freeChildren n, sameName e.1.name name = false) :
    c.childrenNamed n name = [] := by
  rw [childrenNamed, List.filter_eq_nil_iff]
  intro e he
  simp [h e he]

/-- The attribute that is found goes by the earliest name. -/
theorem peekAttribute_of_isEarliest (h : IsEarliest (·.1) (c.freeAttributes n) names x) :
    c.peekAttribute n names = (c.attributesNamed n x).getLast? := by
  obtain ⟨before, after, rfl, ⟨a, ha, hsame⟩, hbefore⟩ := h
  have hpassed : before.findSome? (c.attributeNamed n) = .none := by
    rw [List.findSome?_eq_none_iff]
    intro y hy
    exact attributeNamed_eq_none (hbefore y hy)
  have hmem : a ∈ c.attributesNamed n x := mem_attributesNamed.2 ⟨ha, hsame⟩
  rw [peekAttribute, List.findSome?_append, hpassed, Option.none_or, List.findSome?_cons,
    attributeNamed_eq, List.getLast?_eq_some_getLast (List.ne_nil_of_mem hmem)]

/-- Names find no attribute just if no free one goes by any of them. -/
theorem peekAttribute_isSome_iff :
    (c.peekAttribute n names).isSome = true ↔
      ∃ a ∈ c.freeAttributes n, ∃ y ∈ names, sameName a.1 y = true := by
  constructor
  · intro h
    obtain ⟨a, ha⟩ := Option.isSome_iff_exists.1 h
    obtain ⟨y, hy, hfound⟩ := List.exists_of_findSome?_eq_some ha
    have hsame : sameName a.1 y = true :=
      List.find?_some (p := fun a : String × α => sameName a.1 y) hfound
    exact ⟨a, mem_freeAttributes_of_peekAttribute ha, y, hy, hsame⟩
  · intro h
    obtain ⟨x, hx⟩ := exists_isEarliest_iff.2 h
    obtain ⟨before, after, _, ⟨a, ha, hsame⟩, _⟩ := id hx
    have hmem : a ∈ c.attributesNamed n x := mem_attributesNamed.2 ⟨ha, hsame⟩
    rw [peekAttribute_of_isEarliest hx, List.getLast?_eq_some_getLast (List.ne_nil_of_mem hmem)]
    rfl

/-- The children that are found are all those by the earliest name. -/
theorem peekChildren_of_isEarliest (h : IsEarliest (·.1.name) (c.freeChildren n) names x) :
    c.peekChildren n names = c.childrenNamed n x := by
  obtain ⟨before, after, rfl, ⟨e, he, hsame⟩, hbefore⟩ := h
  have hmem : e ∈ c.childrenNamed n x := mem_childrenNamed.2 ⟨he, hsame⟩
  induction before with
  | nil =>
    rw [List.nil_append, peekChildren]
    simp [List.ne_nil_of_mem hmem]
  | cons y before ih =>
    have hpassed : c.childrenNamed n y = [] := childrenNamed_eq_nil (hbefore y List.mem_cons_self)
    rw [List.cons_append, peekChildren, hpassed]
    exact ih fun z hz => hbefore z (List.mem_cons_of_mem y hz)

/-- Names find children just if some free one goes by one of them. -/
theorem peekChildren_ne_nil_iff :
    c.peekChildren n names ≠ [] ↔
      ∃ e ∈ c.freeChildren n, ∃ y ∈ names, sameName e.1.name y = true := by
  constructor
  · intro h
    by_contra hnone
    apply h
    induction names with
    | nil => rfl
    | cons y names ih =>
      have hpassed : c.childrenNamed n y = [] := by
        apply childrenNamed_eq_nil
        intro e he
        by_contra hsame
        exact hnone ⟨e, he, y, List.mem_cons_self, by simpa using hsame⟩
      rw [peekChildren, hpassed] at h ⊢
      apply ih h
      rintro ⟨e, he, z, hz, hsame⟩
      exact hnone ⟨e, he, z, List.mem_cons_of_mem y hz, hsame⟩
  · intro h
    obtain ⟨x, hx⟩ := exists_isEarliest_iff.2 h
    obtain ⟨before, after, _, ⟨e, he, hsame⟩, _⟩ := id hx
    rw [peekChildren_of_isEarliest hx]
    exact List.ne_nil_of_mem (mem_childrenNamed.2 ⟨he, hsame⟩)

end Found

/-! ### What stays free -/

/-- The free attributes are those that are not taken. -/
theorem mem_freeAttributes {n : Tree α σ} {c : Taken} {a : String × α} :
    a ∈ c.freeAttributes n ↔ a ∈ n.attributes ∧ a.1 ∉ c.attributes := by
  rw [freeAttributes, List.mem_filter]
  simp

section Run

variable {n : Tree α σ} {c c' : Taken} {reply : Reply α σ}

/-- An attribute that is not delivered stays free. -/
theorem Delivers.free_attribute (h : Delivers n c reply c') {a : String × α}
    (ha : a ∈ c.freeAttributes n) (hnot : a.1 ∉ reply.attributes.map (·.1)) :
    a ∈ c'.freeAttributes n := by
  obtain ⟨hmem, hfree⟩ := mem_freeAttributes.1 ha
  rw [mem_freeAttributes, h.mem_attributes, not_or]
  exact ⟨hmem, hfree, hnot⟩

/-- So does a child. -/
theorem Delivers.free_child (h : Delivers n c reply c') {e : Tree α σ × Nat}
    (he : e ∈ c.freeChildren n) (hnot : e.2 ∉ reply.taken.map (·.2)) : e ∈ c'.freeChildren n := by
  obtain ⟨hmem, hfree⟩ := mem_freeChildren.1 he
  rw [mem_freeChildren, h.mem_children, not_or]
  exact ⟨hmem, hfree, hnot⟩

/-- An attribute that no request is answered with stays free. -/
theorem free_attribute_answers {a : String × α} (ha : a ∈ c.freeAttributes n) (rs : List Request)
    (hnot : a.1 ∉ deliveredKeys (answers n rs c).1) :
    a ∈ (answers n rs c).2.freeAttributes n := by
  induction rs generalizing c with
  | nil => exact ha
  | cons r rs ih =>
    have hsplit : deliveredKeys (answers n (r :: rs) c).1 =
        (c.answer n r).1.attributes.map (·.1) ++
          deliveredKeys (answers n rs (c.answer n r).2).1 := by
      simp [answers, deliveredKeys]
    rw [hsplit, List.mem_append, not_or] at hnot
    exact ih ((delivers_answer n c r).free_attribute ha hnot.1) hnot.2

/-- A child that no request is answered with stays free. -/
theorem free_child_answers {e : Tree α σ × Nat} (he : e ∈ c.freeChildren n) (rs : List Request)
    (hnot : e.2 ∉ deliveredPositions (answers n rs c).1) :
    e ∈ (answers n rs c).2.freeChildren n := by
  induction rs generalizing c with
  | nil => exact he
  | cons r rs ih =>
    have hsplit : deliveredPositions (answers n (r :: rs) c).1 =
        (c.answer n r).1.taken.map (·.2) ++
          deliveredPositions (answers n rs (c.answer n r).2).1 := by
      simp [answers, deliveredPositions]
    rw [hsplit, List.mem_append, not_or] at hnot
    exact ih ((delivers_answer n c r).free_child he hnot.1) hnot.2

end Run

/-- An attribute is still to be had: it is free, a name that it alone goes by finds it where this
name decides, and the report names it. -/
structure AttributeLeft (n : Node) (c : Taken) (a : String × Value) : Prop where
  free : a ∈ c.freeAttributes n
  found : ∀ names x, IsEarliest (·.1) (c.freeAttributes n) names x → sameName a.1 x = true →
    (∀ b ∈ c.attributesNamed n x, b = a) → c.peekAttribute n names = some a
  reported : ∀ deferChildren, ∃ keys, a.1 ∈ keys ∧
    attributesReport n keys ∈ c.leftovers n deferChildren

/-- A child is still to be had: it is free, a name that it goes by finds it where this name decides,
and a report is about it. -/
structure ChildLeft (n : Node) (c : Taken) (e : Node × Nat) : Prop where
  free : e ∈ c.freeChildren n
  found : ∀ names x, IsEarliest (·.1.name) (c.freeChildren n) names x →
    sameName e.1.name x = true → e ∈ c.peekChildren n names
  reported : childReport n e.1 ∈ c.leftovers n false

/-- What is free is still to be had. -/
theorem attributeLeft_of_free {n : Node} {c : Taken} {a : String × Value}
    (ha : a ∈ c.freeAttributes n) : AttributeLeft n c a where
  free := ha
  found names x hx hsame honly := by
    have hmem : a ∈ c.attributesNamed n x := mem_attributesNamed.2 ⟨ha, hsame⟩
    have hlast := List.getLast?_eq_some_getLast (List.ne_nil_of_mem hmem)
    rw [peekAttribute_of_isEarliest hx, hlast, honly _ (List.getLast_mem _)]
  reported deferChildren := by
    have hkey : a.1 ∈ (c.freeAttributes n).map (·.1) := List.mem_map_of_mem ha
    refine ⟨_, hkey, List.mem_append_left _ ?_⟩
    rw [unusedAttributes_eq, if_neg (List.ne_nil_of_mem hkey)]
    exact List.mem_singleton_self _

/-- A free child is left. -/
theorem childLeft_of_free {n : Node} {c : Taken} {e : Node × Nat} (he : e ∈ c.freeChildren n) :
    ChildLeft n c e where
  free := he
  found names x hx hsame := by
    rw [peekChildren_of_isEarliest hx]
    exact mem_childrenNamed.2 ⟨he, hsame⟩
  reported := by
    rw [leftovers_eq]
    exact List.mem_append_right _ (List.mem_map_of_mem (f := fun e => childReport n e.1) he)

/-! ### One search -/

/-- The attribute that is taken is the one that was to be seen. -/
theorem takeAttribute_fst (c : Taken) (n : Tree α σ) (names : List String) :
    (c.takeAttribute n names).1 = c.peekAttribute n names := by
  unfold takeAttribute
  cases c.peekAttribute n names <;> rfl

section Search

variable {n : Tree α σ} {c : Taken} {names : List String} {x : String}

/-- The attribute that is taken goes by the name that decides. -/
theorem exists_isEarliest_of_takeAttribute {a : String × α}
    (h : (c.takeAttribute n names).1 = some a) :
    ∃ x, IsEarliest (·.1) (c.freeAttributes n) names x ∧ a ∈ c.attributesNamed n x := by
  rw [takeAttribute_fst] at h
  obtain ⟨x, hx⟩ := exists_isEarliest_iff.2
    (peekAttribute_isSome_iff.1 (Option.isSome_iff_exists.2 ⟨a, h⟩))
  rw [peekAttribute_of_isEarliest hx] at h
  exact ⟨x, hx, List.mem_of_getLast? h⟩

/-- Children are taken if some were to be seen. -/
theorem takeChildren_ne_nil_iff {firstOnly : Bool} :
    (c.takeChildren n names firstOnly).1 ≠ [] ↔ c.peekChildren n names ≠ [] := by
  cases firstOnly with
  | true => simp [takeChildren]
  | false => rfl

/-- The children that are taken go by the earliest name. -/
theorem takeChildren_of_isEarliest (h : IsEarliest (·.1.name) (c.freeChildren n) names x)
    (firstOnly : Bool) :
    (c.takeChildren n names firstOnly).1 =
      if firstOnly then (c.childrenNamed n x).take 1 else c.childrenNamed n x := by
  rw [← peekChildren_of_isEarliest h]
  rfl

/-- The children that are taken go by the name that decides. -/
theorem mem_childrenNamed_of_takeChildren {firstOnly : Bool}
    (h : IsEarliest (·.1.name) (c.freeChildren n) names x) {e : Tree α σ × Nat}
    (he : e ∈ (c.takeChildren n names firstOnly).1) : e ∈ c.childrenNamed n x := by
  rw [takeChildren_of_isEarliest h] at he
  split at he
  · exact List.mem_of_mem_take he
  · exact he

/-- If children are taken, one of the names is the earliest. -/
theorem exists_isEarliest_of_takeChildren {firstOnly : Bool}
    (h : (c.takeChildren n names firstOnly).1 ≠ []) :
    ∃ x, IsEarliest (·.1.name) (c.freeChildren n) names x :=
  exists_isEarliest_iff.2 (peekChildren_ne_nil_iff.1 (takeChildren_ne_nil_iff.1 h))

/-- A child that does not go by the name that decides is not taken. -/
theorem not_mem_takeChildren (h : IsEarliest (·.1.name) (c.freeChildren n) names x)
    (firstOnly : Bool) {e : Tree α σ × Nat} (he : e ∈ c.freeChildren n)
    (hother : sameName e.1.name x = false) :
    e.2 ∉ (c.takeChildren n names firstOnly).1.map (·.2) := by
  intro hmem
  obtain ⟨e', he', hplace⟩ := List.mem_map.1 hmem
  obtain ⟨hfree, hsame⟩ := mem_childrenNamed.1 (mem_childrenNamed_of_takeChildren h he')
  obtain rfl : e' = e := List.inj_on_of_nodup_map (nodup_freeChildren n c) hfree he hplace
  rw [hsame] at hother
  contradiction

end Search

section Left

variable {n : Node} {c : Taken} {names : List String} {x : String}

/-- An attribute that goes by another name than the one that is taken is still to be had, as long as
no further request is answered with it. -/
theorem attributeLeft_answers {a b : String × Value} (ha : (c.takeAttribute n names).1 = some a)
    (hsame : sameName a.1 x = true) (hb : b ∈ c.freeAttributes n)
    (hother : sameName b.1 x = false) {rs : List Request}
    (hnot : b.1 ∉ deliveredKeys (answers n rs (c.takeAttribute n names).2).1) :
    AttributeLeft n (answers n rs (c.takeAttribute n names).2).2 b := by
  have hkey : b.1 ∉ (Reply.attribute (c.takeAttribute n names).1 :
      Reply Value Slots).attributes.map (·.1) := by
    intro hmem
    have hsameKey : b.1 = a.1 := by simpa [Reply.attributes, ha] using hmem
    rw [hsameKey, hsame] at hother
    contradiction
  apply attributeLeft_of_free
  exact free_attribute_answers ((delivers_takeAttribute n c names).free_attribute hb hkey) rs hnot

/-- A child by another name is left, unless a later request takes it. -/
theorem childLeft_answers {firstOnly : Bool} {e : Node × Nat}
    (hx : IsEarliest (·.1.name) (c.freeChildren n) names x) (he : e ∈ c.freeChildren n)
    (hother : sameName e.1.name x = false) {rs : List Request}
    (hnot : e.2 ∉ deliveredPositions (answers n rs (c.takeChildren n names firstOnly).2).1) :
    ChildLeft n (answers n rs (c.takeChildren n names firstOnly).2).2 e := by
  have hplace := not_mem_takeChildren hx firstOnly he hother
  apply childLeft_of_free
  exact free_child_answers
    ((delivers_takeChildren n c names firstOnly).free_child he hplace) rs hnot

end Left

/-- A search for an attribute and a search for children with several names, the aliases before the
name of an input. Each finds something just if something free goes by one of the names, and what it
takes goes by the earliest name that anything free goes by: one such attribute, and all such
children in their order or the first of them. Nothing else is taken. What does not go by this name
is still to be had after any further requests, as long as none of them is answered with it. Visitors
make their searches in this way. -/
theorem take_earliest (n : Node) (c : Taken) (aliases : List String) (name : String)
    (firstOnly : Bool) :
    let names := aliases ++ [name]
    let o := c.takeAttribute n names
    let p := c.takeChildren n names firstOnly
    (o.1.isSome = true ↔ ∃ a ∈ c.freeAttributes n, ∃ y ∈ names, sameName a.1 y = true) ∧
      (∀ a, o.1 = some a → a ∈ c.freeAttributes n ∧
        ∃ x, IsEarliest (·.1) (c.freeAttributes n) names x ∧ sameName a.1 x = true ∧
          ∀ b ∈ c.freeAttributes n, sameName b.1 x = false →
            ∀ rs, b.1 ∉ deliveredKeys (answers n rs o.2).1 →
              AttributeLeft n (answers n rs o.2).2 b) ∧
      (p.1 ≠ [] ↔ ∃ e ∈ c.freeChildren n, ∃ y ∈ names, sameName e.1.name y = true) ∧
      (p.1 ≠ [] → ∃ x, IsEarliest (·.1.name) (c.freeChildren n) names x ∧
        p.1 = (if firstOnly then (c.childrenNamed n x).take 1 else c.childrenNamed n x) ∧
        ∀ e ∈ c.freeChildren n, sameName e.1.name x = false →
          ∀ rs, e.2 ∉ deliveredPositions (answers n rs p.2).1 →
            ChildLeft n (answers n rs p.2).2 e) ∧
      Delivers n c (.attribute o.1) o.2 ∧ Delivers n c (.children p.1) p.2 ∧
      ∀ v : Visit, v.node = n → v.aliases = aliases → v.marker.name = some name →
        v.takeAttribute c = (.ok (o.1.map (·.2)), o.2) ∧
          v.takeChildren c firstOnly = (.ok (p.1.map (·.1)), p.2) := by
  intro names o p
  refine ⟨?_, ?_, takeChildren_ne_nil_iff.trans peekChildren_ne_nil_iff, ?_,
    delivers_takeAttribute n c names, delivers_takeChildren n c names firstOnly, ?_⟩
  · rw [show o.1 = c.peekAttribute n names from takeAttribute_fst c n names]
    exact peekAttribute_isSome_iff
  · intro a ha
    obtain ⟨x, hx, hnamed⟩ := exists_isEarliest_of_takeAttribute ha
    obtain ⟨hfree, hsame⟩ := mem_attributesNamed.1 hnamed
    exact ⟨hfree, x, hx, hsame, fun b hb hother rs => attributeLeft_answers ha hsame hb hother⟩
  · intro hne
    obtain ⟨x, hx⟩ := exists_isEarliest_of_takeChildren hne
    exact ⟨x, hx, takeChildren_of_isEarliest hx firstOnly,
      fun e he hother rs => childLeft_answers hx he hother⟩
  · rintro v rfl rfl hname
    simp only [Visit.takeAttribute, Visit.takeChildren, hname]
    exact ⟨rfl, rfl⟩

/-- An element with a key that is a name, and after it a key that is an alias. -/
private def dial : Node :=
  ⟨"Dial", [("Rate", .str "1"), ("refRate", .str "2")], .none, .empty,
    [⟨"Filter", [], .none, .empty, []⟩]⟩

/-- The alias decides, and the name is found by the next search for it. -/
theorem take_earliest_dial :
    ∃ a, (Taken.none.takeAttribute dial ["refRate", "rate"]).1 = some a ∧ a.1 = "refRate" ∧
      AttributeLeft dial (Taken.none.takeAttribute dial ["refRate", "rate"]).2
        ("Rate", .str "1") := by
  have h := take_earliest dial .none ["refRate"] "rate" true
  have hsome : (Taken.none.takeAttribute dial ["refRate", "rate"]).1.isSome = true := by
    decide +kernel
  obtain ⟨a, ha⟩ := Option.isSome_iff_exists.1 hsome
  have hkey : a.1 = "refRate" := by
    have hkeys : (Taken.none.takeAttribute dial ["refRate", "rate"]).1.map (·.1) =
        some "refRate" := by
      decide +kernel
    rw [ha] at hkeys
    exact Option.some.inj hkeys
  obtain ⟨_, x, _, hsame, hleft⟩ := h.2.1 a ha
  have hother : sameName "Rate" x = false := by
    rw [sameName_iff, hkey] at hsame
    rw [sameName, ← hsame]
    decide +kernel
  exact ⟨a, ha, hkey, hleft ("Rate", .str "1") List.mem_cons_self hother [] List.not_mem_nil⟩

end Taken
end ConfigAssembly
