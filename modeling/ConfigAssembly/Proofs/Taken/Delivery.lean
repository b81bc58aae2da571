import Mathlib.Data.List.Nodup
import Mathlib.Data.List.Perm.Basic
import ConfigAssembly.Taken

/-!
# Every part of an element is delivered once or reported once

Whoever binds the inputs of an element looks for attributes and takes attributes and children, one
request after the other (`Request`, `Taken.answers`). `Delivers` says what one request does: it
delivers parts that were free, and these are what is taken in addition. From this follows by
induction what holds after any number of requests (`Accounted`): no part is delivered twice, and
taken is what was delivered or set aside before. `accounted_answers` puts this together with the
report at the end, which names the parts that were not delivered, in their order.
-/

namespace ConfigAssembly

variable {α σ : Type}

/-- What may be asked of an element. -/
inductive Request where
  /-- Looks for an attribute and leaves it where it is. -/
  | peekAttribute (names : List String)
  | takeAttribute (names : List String)
  | takeChildren (names : List String) (firstOnly : Bool)

/-- What a request is answered with. -/
inductive Reply (α σ : Type) where
  /-- An attribute that was looked at, if one was found. -/
  | seen (a : Option (String × α))
  | attribute (a : Option (String × α))
  | children (cs : List (Tree α σ × Nat))

/-- The attributes that a reply delivers. -/
def Reply.attributes : Reply α σ → List (String × α)
  | .attribute a => a.toList
  | _ => []

/-- The children that a reply delivers, with their positions. -/
def Reply.taken : Reply α σ → List (Tree α σ × Nat)
  | .children cs => cs
  | _ => []

/-- The keys of the attributes that replies deliver. -/
def deliveredKeys (replies : List (Reply α σ)) : List String :=
  (replies.flatMap Reply.attributes).map (·.1)

/-- The positions of the children that replies deliver. -/
def deliveredPositions (replies : List (Reply α σ)) : List Nat :=
  (replies.flatMap Reply.taken).map (·.2)

namespace Taken

/-- The reply to a request, and what is taken then. -/
def answer (n : Tree α σ) (c : Taken) : Request → Reply α σ × Taken
  | .peekAttribute names => (.seen (c.peekAttribute n names), c)
  | .takeAttribute names =>
    let (a, c) := c.takeAttribute n names
    (.attribute a, c)
  | .takeChildren names firstOnly =>
    let (cs, c) := c.takeChildren n names firstOnly
    (.children cs, c)

/-- The replies to requests that are made one after the other, and what is taken then. -/
def answers (n : Tree α σ) : List Request → Taken → List (Reply α σ) × Taken
  | [], c => ([], c)
  | r :: rs, c =>
    let (reply, c) := c.answer n r
    let (replies, c) := answers n rs c
    (reply :: replies, c)

/-! ### One request -/

/-- Parts that were free are delivered, and only these are taken in addition. -/
structure Delivers (n : Tree α σ) (c : Taken) (reply : Reply α σ) (c' : Taken) : Prop where
  attributes : ∀ a ∈ reply.attributes, a ∈ c.freeAttributes n
  nodup_keys : (reply.attributes.map (·.1)).Nodup
  children : reply.taken.Sublist (c.freeChildren n)
  mem_attributes : ∀ k, k ∈ c'.attributes ↔ k ∈ c.attributes ∨ k ∈ reply.attributes.map (·.1)
  mem_children : ∀ i, i ∈ c'.children ↔ i ∈ c.children ∨ i ∈ reply.taken.map (·.2)

/-- An attribute that names find is one of the free attributes. -/
theorem mem_freeAttributes_of_peekAttribute {n : Tree α σ} {c : Taken} {names : List String}
    {a : String × α} (h : c.peekAttribute n names = some a) : a ∈ c.freeAttributes n := by
  obtain ⟨name, _, hname⟩ := List.exists_of_findSome?_eq_some h
  exact List.mem_reverse.1 (List.mem_of_find?_eq_some hname)

/-- The children that names find are some of the free children, in their order. -/
theorem peekChildren_sublist (n : Tree α σ) (c : Taken) (names : List String) :
    (c.peekChildren n names).Sublist (c.freeChildren n) := by
  induction names with
  | nil => exact List.nil_sublist _
  | cons name names ih =>
    rw [peekChildren]
    split
    · exact ih
    · exact List.filter_sublist

/-- Taking an attribute delivers what it finds, and marks just that. -/
theorem delivers_takeAttribute (n : Tree α σ) (c : Taken) (names : List String) :
    Delivers n c (.attribute (c.takeAttribute n names).1) (c.takeAttribute n names).2 := by
  unfold takeAttribute
  cases hp : c.peekAttribute n names with
  | none => constructor <;> simp [Reply.attributes, Reply.taken]
  | some a =>
    have hfree : a ∈ c.freeAttributes n := mem_freeAttributes_of_peekAttribute hp
    constructor
    · simpa [Reply.attributes] using hfree
    · simp [Reply.attributes]
    · exact List.nil_sublist _
    · intro k
      simp [Reply.attributes, mem_attributes_markAttribute, or_comm]
    · simp [Reply.taken]

/-- So does taking children. -/
theorem delivers_takeChildren (n : Tree α σ) (c : Taken) (names : List String)
    (firstOnly : Bool) :
    Delivers n c (.children (c.takeChildren n names firstOnly).1)
      (c.takeChildren n names firstOnly).2 := by
  have hfound := c.peekChildren_sublist n names
  constructor
  · simp [Reply.attributes]
  · simp [Reply.attributes]
  · rw [takeChildren, Reply.taken]
    dsimp only
    split
    · exact (List.take_sublist 1 _).trans hfound
    · exact hfound
  · simp [takeChildren, Reply.attributes]
  · intro i
    rw [takeChildren, mem_children_markChildren, or_comm]
    rfl

/-- What one request does. -/
theorem delivers_answer (n : Tree α σ) (c : Taken) (r : Request) :
    Delivers n c (c.answer n r).1 (c.answer n r).2 := by
  cases r with
  | peekAttribute names => constructor <;> simp [answer, Reply.attributes, Reply.taken]
  | takeAttribute names => exact delivers_takeAttribute n c names
  | takeChildren names firstOnly => exact delivers_takeChildren n c names firstOnly

/-! ### Any number of requests -/

/-- Replies deliver parts of an element, none of them twice and none that was set aside, and what is
taken is what was set aside or delivered. -/
structure Accounted (n : Tree α σ) (aside : List Nat) (replies : List (Reply α σ)) (c : Taken) :
    Prop where
  attributes : ∀ a ∈ replies.flatMap Reply.attributes, a ∈ n.attributes
  children : ∀ e ∈ replies.flatMap Reply.taken, n.children[e.2]? = some e.1
  nodup_keys : (deliveredKeys replies).Nodup
  nodup_positions : (deliveredPositions replies).Nodup
  not_aside : ∀ i ∈ deliveredPositions replies, i ∉ aside
  mem_attributes : ∀ k, k ∈ c.attributes ↔ k ∈ deliveredKeys replies
  mem_children : ∀ i, i ∈ c.children ↔ i ∈ aside ∨ i ∈ deliveredPositions replies

/-- The keys of one more reply come last. -/
theorem deliveredKeys_concat (replies : List (Reply α σ)) (reply : Reply α σ) :
    deliveredKeys (replies ++ [reply]) = deliveredKeys replies ++ reply.attributes.map (·.1) := by
  simp [deliveredKeys]

/-- So do its positions. -/
theorem deliveredPositions_concat (replies : List (Reply α σ)) (reply : Reply α σ) :
    deliveredPositions (replies ++ [reply]) =
      deliveredPositions replies ++ reply.taken.map (·.2) := by
  simp [deliveredPositions]

/-- A child that is free stands at its position, which is not taken. -/
theorem mem_freeChildren {n : Tree α σ} {c : Taken} {e : Tree α σ × Nat} :
    e ∈ c.freeChildren n ↔ n.children[e.2]? = some e.1 ∧ e.2 ∉ c.children := by
  rw [freeChildren, List.mem_filter, List.mem_zipIdx_iff_getElem?]
  simp

/-- No child is free twice. -/
theorem nodup_freeChildren (n : Tree α σ) (c : Taken) : ((c.freeChildren n).map (·.2)).Nodup := by
  have hsublist : ((c.freeChildren n).map (·.2)).Sublist (n.children.zipIdx.map (·.2)) :=
    List.filter_sublist.map _
  refine hsublist.nodup ?_
  rw [List.zipIdx_map_snd]
  exact List.nodup_range'

/-- At the start all is free but what was put aside. -/
theorem Accounted.start (n : Tree α σ) (aside : List Nat) :
    Accounted n aside [] ⟨[], aside⟩ := by
  constructor <;> simp [deliveredKeys, deliveredPositions]

/-- One more request keeps the account. -/
theorem Accounted.step {n : Tree α σ} {aside : List Nat} {replies : List (Reply α σ)}
    {c c' : Taken} {reply : Reply α σ} (h : Accounted n aside replies c)
    (hd : Delivers n c reply c') : Accounted n aside (replies ++ [reply]) c' := by
  -- What is free was neither delivered nor set aside.
  have hkeys : ∀ k ∈ reply.attributes.map (·.1), k ∉ deliveredKeys replies := by
    intro k hk
    obtain ⟨a, ha, rfl⟩ := List.mem_map.1 hk
    have hfree : a.1 ∉ c.attributes := by
      simpa using (List.mem_filter.1 (hd.attributes a ha)).2
    rwa [← h.mem_attributes]
  have hpositions : ∀ i ∈ reply.taken.map (·.2), i ∉ aside ∧ i ∉ deliveredPositions replies := by
    intro i hi
    obtain ⟨e, he, rfl⟩ := List.mem_map.1 hi
    have hfree : e.2 ∉ c.children := (mem_freeChildren.1 (hd.children.subset he)).2
    rwa [h.mem_children, not_or] at hfree
  constructor
  · intro a ha
    rw [List.flatMap_append, List.mem_append] at ha
    rcases ha with ha | ha
    · exact h.attributes a ha
    · exact (List.mem_filter.1 (hd.attributes a (by simpa using ha))).1
  · intro e he
    rw [List.flatMap_append, List.mem_append] at he
    rcases he with he | he
    · exact h.children e he
    · exact (mem_freeChildren.1 (hd.children.subset (by simpa using he))).1
  · rw [deliveredKeys_concat, List.nodup_append]
    refine ⟨h.nodup_keys, hd.nodup_keys, ?_⟩
    rintro k hk _ hk' rfl
    exact hkeys k hk' hk
  · rw [deliveredPositions_concat, List.nodup_append]
    refine ⟨h.nodup_positions, (hd.children.map _).nodup (nodup_freeChildren n c), ?_⟩
    rintro i hi _ hi' rfl
    exact (hpositions i hi').2 hi
  · intro i hi
    rw [deliveredPositions_concat, List.mem_append] at hi
    rcases hi with hi | hi
    · exact h.not_aside i hi
    · exact (hpositions i hi).1
  · intro k
    rw [hd.mem_attributes, h.mem_attributes, deliveredKeys_concat, List.mem_append]
  · intro i
    rw [hd.mem_children, h.mem_children, deliveredPositions_concat, List.mem_append, or_assoc]

/-- Any number of requests keep the account. -/
theorem Accounted.run {n : Tree α σ} {aside : List Nat} {replies : List (Reply α σ)} {c : Taken}
    (h : Accounted n aside replies c) (rs : List Request) :
    Accounted n aside (replies ++ (answers n rs c).1) (answers n rs c).2 := by
  induction rs generalizing replies c with
  | nil => simpa [answers] using h
  | cons r rs ih =>
    have hrest := ih (h.step (delivers_answer n c r))
    rw [List.append_assoc] at hrest
    exact hrest

/-! ### The report -/

/-- The diagnostic that names the keys of attributes that nobody took. -/
def attributesReport (n : Node) (keys : List String) : Diagnostic :=
  ⟨.unusedAttribute,
    n.name ++ (if keys.length = 1 then " contains an invalid element or attribute "
      else " contains invalid attributes ") ++
      ", ".intercalate (keys.map fun k => "\"" ++ k ++ "\""),
    n.name⟩

/-- The diagnostic about a child that nobody took. -/
def childReport (n child : Node) : Diagnostic :=
  ⟨.unusedChild, ownerLabel n ++ " has no parameter that matches element " ++ child.name, n.name⟩

/-- The report on attributes names all that are free. -/
theorem unusedAttributes_eq (n : Node) (c : Taken) :
    c.unusedAttributes n =
      if (c.freeAttributes n).map (·.1) = [] then []
      else [attributesReport n ((c.freeAttributes n).map (·.1))] := by
  unfold unusedAttributes attributesReport
  dsimp only
  generalize (c.freeAttributes n).map (·.1) = keys
  rcases keys with _ | ⟨k, _ | ⟨k', ks⟩⟩
  · rfl
  · simp [String.append_assoc]
  · simp [String.append_assoc]

/-- The reports name all that is free. -/
theorem leftovers_eq (n : Node) (c : Taken) :
    c.leftovers n false =
      (if (c.freeAttributes n).map (·.1) = [] then []
        else [attributesReport n ((c.freeAttributes n).map (·.1))]) ++
      (c.freeChildren n).map fun e => childReport n e.1 := by
  rw [leftovers, unusedAttributes_eq]
  rfl

section Left

variable {n : Tree α σ} {aside : List Nat} {replies : List (Reply α σ)} {c : Taken}

/-- The keys of the free attributes are those that were not delivered. -/
theorem Accounted.freeAttributes (h : Accounted n aside replies c) :
    (c.freeAttributes n).map (·.1) =
      (n.attributes.map (·.1)).filter (· ∉ deliveredKeys replies) := by
  rw [Taken.freeAttributes, List.filter_map]
  congr 1
  refine List.filter_congr fun a _ => ?_
  simp [← h.mem_attributes]

/-- The free children are those that were neither set aside nor delivered. -/
theorem Accounted.freeChildren (h : Accounted n aside replies c) :
    c.freeChildren n =
      n.children.zipIdx.filter fun e => e.2 ∉ aside ∧ e.2 ∉ deliveredPositions replies := by
  refine List.filter_congr fun e _ => ?_
  simp [h.mem_children e.2]

/-- The keys that were delivered and those that were not are all keys of the element. -/
theorem Accounted.keys_perm (h : Accounted n aside replies c)
    (hkeys : (n.attributes.map (·.1)).Nodup) :
    (deliveredKeys replies ++ (n.attributes.map (·.1)).filter (· ∉ deliveredKeys replies)).Perm
      (n.attributes.map (·.1)) := by
  rw [List.perm_ext_iff_of_nodup _ hkeys]
  · intro k
    have hsub : k ∈ deliveredKeys replies → k ∈ n.attributes.map (·.1) := by
      intro hk
      obtain ⟨a, ha, rfl⟩ := List.mem_map.1 hk
      exact List.mem_map_of_mem (h.attributes a ha)
    simp only [List.mem_append, List.mem_filter, decide_eq_true_eq]
    by_cases hk : k ∈ deliveredKeys replies
    · simp [hk, hsub hk]
    · simp [hk]
  · rw [List.nodup_append]
    refine ⟨h.nodup_keys, hkeys.filter _, ?_⟩
    rintro k hk _ hk' rfl
    simp [hk] at hk'

/-- The children that were delivered and those that were not are all children that were not set
aside. -/
theorem Accounted.positions_perm (h : Accounted n aside replies c) :
    (deliveredPositions replies ++ (n.children.zipIdx.filter fun e =>
        e.2 ∉ aside ∧ e.2 ∉ deliveredPositions replies).map (·.2)).Perm
      ((List.range n.children.length).filter (· ∉ aside)) := by
  have hleft : ((n.children.zipIdx.filter fun e =>
      e.2 ∉ aside ∧ e.2 ∉ deliveredPositions replies).map (·.2)) =
      (List.range n.children.length).filter fun i =>
        i ∉ aside ∧ i ∉ deliveredPositions replies := by
    rw [List.range_eq_range', ← List.zipIdx_map_snd 0 n.children, List.filter_map]
    rfl
  have hrange : (List.range n.children.length).Nodup := List.nodup_range
  rw [hleft, List.perm_ext_iff_of_nodup _ (hrange.filter _)]
  · intro i
    have hsub : i ∈ deliveredPositions replies → i < n.children.length ∧ i ∉ aside := by
      intro hi
      obtain ⟨e, he, rfl⟩ := List.mem_map.1 hi
      have hchild := h.children e he
      exact ⟨(List.getElem?_eq_some_iff.1 hchild).1, h.not_aside _ hi⟩
    simp only [List.mem_append, List.mem_filter, List.mem_range, decide_eq_true_eq]
    by_cases hi : i ∈ deliveredPositions replies
    · simp [hi, hsub hi]
    · simp [hi]
  · rw [List.nodup_append]
    refine ⟨h.nodup_positions, hrange.filter _, ?_⟩
    rintro i hi _ hi' rfl
    simp [hi] at hi'

end Left

/-- After any requests on an element with some children set aside: each attribute and each child was
delivered at most once, and these and the children set aside are what is taken, all of them parts of
the element; the report names the keys that were not delivered, all in one diagnostic, and then, one
by one, the children that were neither delivered nor set aside, each in the order of the element. So
delivered and reported parts together are all parts, each of them once. -/
theorem accounted_answers (n : Node) (aside : List Nat) (requests : List Request)
    (hkeys : (n.attributes.map (·.1)).Nodup) (haside : ∀ i ∈ aside, i < n.children.length) :
    let replies := (answers n requests ⟨[], aside⟩).1
    let c := (answers n requests ⟨[], aside⟩).2
    let keysLeft := (n.attributes.map (·.1)).filter (· ∉ deliveredKeys replies)
    let childrenLeft :=
      n.children.zipIdx.filter fun e => e.2 ∉ aside ∧ e.2 ∉ deliveredPositions replies
    Accounted n aside replies c ∧
      (∀ k ∈ c.attributes, k ∈ n.attributes.map (·.1)) ∧
      (∀ i ∈ c.children, i < n.children.length) ∧
      c.leftovers n false =
        (if keysLeft = [] then [] else [attributesReport n keysLeft]) ++
          childrenLeft.map (fun e => childReport n e.1) ∧
      (deliveredKeys replies ++ keysLeft).Perm (n.attributes.map (·.1)) ∧
      (deliveredPositions replies ++ childrenLeft.map (·.2)).Perm
        ((List.range n.children.length).filter (· ∉ aside)) := by
  intro replies c keysLeft childrenLeft
  have h : Accounted n aside replies c := (Accounted.start n aside).run requests
  refine ⟨h, fun k hk => ?_, fun i hi => ?_, ?_, h.keys_perm hkeys, h.positions_perm⟩
  · exact (h.keys_perm hkeys).subset (List.mem_append_left _ ((h.mem_attributes k).1 hk))
  · rcases (h.mem_children i).1 hi with hi | hi
    · exact haside i hi
    · have hmem := h.positions_perm.subset (List.mem_append_left _ hi)
      exact List.mem_range.1 (List.mem_filter.1 hmem).1
  · rw [leftovers_eq, h.freeAttributes, h.freeChildren]

/-- An element with two keys that differ in case only and two children of one name. -/
private def shelf : Node :=
  ⟨"Shelf", [("Size", .str "1"), ("size", .str "2"), ("color", .str "red")], .none, .empty,
    [⟨"Properties", [], .none, .empty, []⟩, ⟨"Board", [], .none, .empty, []⟩,
      ⟨"board", [], .none, .empty, []⟩]⟩

/-- Of the two keys the later one is taken first, and the first child of the name; the others are
reported. -/
theorem accounted_answers_shelf :
    (shelf.attributes.map (·.1)).Nodup ∧ (∀ i ∈ [0], i < shelf.children.length) ∧
      (answers shelf
          [.peekAttribute ["SIZE"], .takeAttribute ["width", "SIZE"],
            .takeChildren ["plank", "board"] true, .takeAttribute ["width"]]
          ⟨[], [0]⟩).2.leftovers shelf false =
        [attributesReport shelf ["Size", "color"],
          childReport shelf ⟨"board", [], .none, .empty, []⟩] := by
  have hkeys : (shelf.attributes.map (·.1)).Nodup := by decide
  have haside : ∀ i ∈ [0], i < shelf.children.length := by decide
  refine ⟨hkeys, haside, ?_⟩
  rw [(accounted_answers shelf [0] _ hkeys haside).2.2.2.1]
  decide +kernel

end Taken
end ConfigAssembly
