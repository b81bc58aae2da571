import ConfigAssembly.Proofs.Taken.Precedence

/-!
# In which order parts of one name are delivered

Several parts of an element may go by one name: children of one name, and attributes whose keys
differ in case only. Who takes them one after the other gets the children from the first one to the
last (`Taken.childrenInTurn_eq`) but the attributes from the last one to the first
(`Taken.attributesInTurn_eq`). So the first attribute is not the one that is found unless it is the
only one (`Taken.takes_last`, `Taken.not_forall_takes_first`).
-/

namespace ConfigAssembly

open ConfigAssembly.Text

/-! ### Lists without repetitions -/

section Distinct

variable {β γ : Type} {x : β} {l : List β}

/-- The first entry is taken out by its key. -/
theorem filter_ne_cons [DecidableEq γ] {key : β → γ} (h : ((x :: l).map key).Nodup) :
    (x :: l).filter (fun y => key y ≠ key x) = l := by
  rw [List.map_cons, List.nodup_cons] at h
  rw [List.filter_cons_of_neg (by simp), List.filter_eq_self]
  intro y hy
  have hne : key y ≠ key x := by
    intro he
    apply h.1
    rw [← he]
    exact List.mem_map_of_mem hy
  simpa using hne

/-- The last entry is the first one just if there are no others. -/
theorem getLast?_eq_head?_iff (h : l.Nodup) : l.getLast? = l.head? ↔ l.length ≤ 1 := by
  rcases l with _ | ⟨x, _ | ⟨y, l⟩⟩
  · simp
  · simp
  · constructor
    · intro he
      have hlast : (y :: l).getLast? = some x := by simpa using he
      exact absurd (List.mem_of_getLast? hlast) (List.nodup_cons.1 h).1
    · simp

/-- From either end a list gives the same just if it has one entry at most. -/
theorem take_reverse_eq_take_iff (h : l.Nodup) :
    (∀ k, l.reverse.take k = l.take k) ↔ l.length ≤ 1 := by
  constructor
  · intro hall
    have hends := congrArg List.head? (hall l.length)
    rw [← List.length_reverse, List.take_length, List.length_reverse, List.take_length,
      List.head?_reverse] at hends
    exact (getLast?_eq_head?_iff h).1 hends
  · intro hlength k
    rcases l with _ | ⟨x, _ | ⟨y, l⟩⟩
    · rfl
    · rfl
    · simp at hlength

end Distinct

namespace Taken

variable {n : Node}

/-- The attributes that are delivered to who takes one of a name, several times over. -/
def attributesInTurn (c : Taken) (n : Node) (name : String) (k : Nat) : List (String × Value) :=
  (answers n (List.replicate k (.takeAttribute [name])) c).1.flatMap Reply.attributes

/-- The children that are delivered to who takes the first of a name, several times over. -/
def childrenInTurn (c : Taken) (n : Node) (name : String) (k : Nat) : List (Node × Nat) :=
  (answers n (List.replicate k (.takeChildren [name] true)) c).1.flatMap Reply.taken

/-! ### Attributes -/

/-- Of the attributes by a name, the one that is marked is gone. -/
theorem attributesNamed_markAttribute (c : Taken) (n : Node) (key name : String) :
    (c.markAttribute key).attributesNamed n name =
      (c.attributesNamed n name).filter fun a => a.1 ≠ key := by
  have hfree : (c.markAttribute key).freeAttributes n =
      (c.freeAttributes n).filter fun a => a.1 ≠ key := by
    rw [freeAttributes, freeAttributes, List.filter_filter]
    refine List.filter_congr fun a _ => ?_
    simp [mem_attributes_markAttribute]
  rw [attributesNamed, attributesNamed, hfree, List.filter_filter, List.filter_filter]
  refine List.filter_congr fun a _ => ?_
  rw [Bool.and_comm]

/-- No key comes twice among them. -/
theorem nodup_keys_attributesNamed (hkeys : (n.attributes.map (·.1)).Nodup) (c : Taken)
    (name : String) : ((c.attributesNamed n name).map (·.1)).Nodup := by
  have hsublist : (c.attributesNamed n name).Sublist n.attributes :=
    List.filter_sublist.trans List.filter_sublist
  exact (hsublist.map _).nodup hkeys

/-- Attributes of one name are delivered from the last one on. -/
theorem attributesInTurn_eq (hkeys : (n.attributes.map (·.1)).Nodup) (c : Taken) (name : String)
    (k : Nat) : c.attributesInTurn n name k = (c.attributesNamed n name).reverse.take k := by
  unfold attributesInTurn
  induction k generalizing c with
  | zero => rfl
  | succ k ih =>
    have hpeek : c.peekAttribute n [name] = (c.attributesNamed n name).reverse.head? := by
      rw [peekAttribute, List.findSome?_singleton, attributeNamed_eq, List.head?_reverse]
    have hnodup : ((c.attributesNamed n name).reverse.map (·.1)).Nodup := by
      rw [List.map_reverse, List.nodup_reverse]
      exact nodup_keys_attributesNamed hkeys c name
    rw [List.replicate_succ, answers, answer, takeAttribute, hpeek]
    cases hl : (c.attributesNamed n name).reverse with
    | nil => simpa [hl, Reply.attributes] using ih c
    | cons a as =>
      rw [hl] at hnodup
      have hrest : ((c.markAttribute a.1).attributesNamed n name).reverse = as := by
        rw [attributesNamed_markAttribute, ← List.filter_reverse, hl]
        exact filter_ne_cons hnodup
      have hnext := ih (c.markAttribute a.1)
      rw [hrest] at hnext
      simpa [Reply.attributes] using hnext

/-! ### Children -/

/-- Of the children by a name, the one that is marked is gone. -/
theorem childrenNamed_markChild (c : Taken) (n : Node) (i : Nat) (name : String) :
    (c.markChildren [i]).childrenNamed n name =
      (c.childrenNamed n name).filter fun e => e.2 ≠ i := by
  have hfree : (c.markChildren [i]).freeChildren n =
      (c.freeChildren n).filter fun e => e.2 ≠ i := by
    rw [freeChildren, freeChildren, List.filter_filter]
    refine List.filter_congr fun e _ => ?_
    simp [mem_children_markChildren]
  rw [childrenNamed, childrenNamed, hfree, List.filter_filter, List.filter_filter]
  refine List.filter_congr fun e _ => ?_
  rw [Bool.and_comm]

/-- Children of one name are delivered from the first one on. -/
theorem childrenInTurn_eq (n : Node) (c : Taken) (name : String) (k : Nat) :
    c.childrenInTurn n name k = (c.childrenNamed n name).take k := by
  unfold childrenInTurn
  induction k generalizing c with
  | zero => rfl
  | succ k ih =>
    have hpeek : c.peekChildren n [name] = c.childrenNamed n name := by
      rw [peekChildren, peekChildren]
      split
      · next hempty => exact (List.isEmpty_iff.1 hempty).symm
      · rfl
    have hnodup : ((c.childrenNamed n name).map (·.2)).Nodup :=
      (List.filter_sublist.map _).nodup (nodup_freeChildren n c)
    rw [List.replicate_succ, answers, answer, takeChildren, hpeek]
    cases hl : c.childrenNamed n name with
    | nil => simpa [hl, Reply.taken, markChildren] using ih c
    | cons e es =>
      rw [hl] at hnodup
      have hrest : (c.markChildren [e.2]).childrenNamed n name = es := by
        rw [childrenNamed_markChild, hl]
        exact filter_ne_cons hnodup
      have hnext := ih (c.markChildren [e.2])
      rw [hrest] at hnext
      simpa [Reply.taken] using hnext

/-! ### The first and the last -/

/-- Of the free attributes that go by the name that decides, the last one is found and taken, which
is the first one just if there is no other. Who takes attributes of one name one after the other
gets them from the last one on, in the order of the element just if there is one at most; children
of one name come in the order of the element. -/
theorem takes_last (n : Node) (c : Taken) (names : List String) (x : String)
    (hkeys : (n.attributes.map (·.1)).Nodup)
    (hx : IsEarliest (·.1) (c.freeAttributes n) names x) :
    let matching := c.attributesNamed n x
    c.peekAttribute n names = matching.getLast? ∧
      (c.takeAttribute n names).1 = matching.getLast? ∧
      (c.peekAttribute n names = matching.head? ↔ matching.length = 1) ∧
      ∀ name,
        (∀ k, c.attributesInTurn n name k = (c.attributesNamed n name).reverse.take k) ∧
        ((∀ k, c.attributesInTurn n name k = (c.attributesNamed n name).take k) ↔
          (c.attributesNamed n name).length ≤ 1) ∧
        ∀ k, c.childrenInTurn n name k = (c.childrenNamed n name).take k := by
  intro matching
  have hpeek : c.peekAttribute n names = matching.getLast? := peekAttribute_of_isEarliest hx
  have hnodup : ∀ name, (c.attributesNamed n name).Nodup := fun name =>
    (nodup_keys_attributesNamed hkeys c name).of_map
  have hsome : 0 < matching.length := by
    obtain ⟨_, _, _, ⟨a, ha, hsame⟩, _⟩ := hx
    exact List.length_pos_of_mem (mem_attributesNamed.2 ⟨ha, hsame⟩)
  refine ⟨hpeek, (takeAttribute_fst c n names).trans hpeek, ?_, ?_⟩
  · rw [hpeek, getLast?_eq_head?_iff (hnodup x), Nat.le_antisymm_iff]
    exact ⟨fun hle => ⟨hle, hsome⟩, And.left⟩
  · intro name
    refine ⟨attributesInTurn_eq hkeys c name, ?_, childrenInTurn_eq n c name⟩
    rw [← take_reverse_eq_take_iff (hnodup name)]
    simp only [attributesInTurn_eq hkeys c name]

/-- An element with two keys and two children that differ in case. -/
private def sieve : Node :=
  ⟨"Sieve", [("Rate", .str "1"), ("rate", .str "2"), ("mesh", .str "fine")], .none, .empty,
    [⟨"Filter", [], .none, .empty, []⟩, ⟨"filter", [], .none, .empty, []⟩]⟩

/-- The attribute of the example goes by the second name. -/
private theorem isEarliest_sieve :
    IsEarliest (·.1) (Taken.none.freeAttributes sieve) ["refRate", "RATE"] "RATE" := by
  refine ⟨["refRate"], [], rfl, ⟨("Rate", .str "1"), List.mem_cons_self, ?_⟩, ?_⟩
  · decide +kernel
  · decide +kernel

/-- The later key is found first, and the earlier child. -/
theorem takes_last_sieve :
    (sieve.attributes.map (·.1)).Nodup ∧
      IsEarliest (·.1) (Taken.none.freeAttributes sieve) ["refRate", "RATE"] "RATE" ∧
      (Taken.none.peekAttribute sieve ["refRate", "RATE"]).map (·.1) = some "rate" ∧
      (Taken.none.attributesInTurn sieve "rate" 2).map (·.1) = ["rate", "Rate"] ∧
      (Taken.none.childrenInTurn sieve "filter" 2).map (·.1.name) = ["Filter", "filter"] := by
  have hkeys : (sieve.attributes.map (·.1)).Nodup := by decide
  obtain ⟨hpeek, _, _, hturn⟩ := takes_last sieve .none _ _ hkeys isEarliest_sieve
  obtain ⟨hattributes, _, hchildren⟩ := hturn "rate"
  refine ⟨hkeys, isEarliest_sieve, ?_, ?_, ?_⟩
  · rw [hpeek]
    decide +kernel
  · rw [hattributes 2]
    decide +kernel
  · rw [(hturn "filter").2.2 2]
    decide +kernel

/-- Attributes are not found in the order of the element. -/
theorem not_forall_takes_first :
    ¬ ∀ (n : Node) (c : Taken) (names : List String) (x : String),
      (n.attributes.map (·.1)).Nodup → IsEarliest (·.1) (c.freeAttributes n) names x →
        c.peekAttribute n names = (c.attributesNamed n x).head? ∧
          (c.takeAttribute n names).1 = (c.attributesNamed n x).head? ∧
          ∀ name k, c.attributesInTurn n name k = (c.attributesNamed n name).take k := by
  intro h
  have hfirst := (h sieve .none _ _ (by decide) isEarliest_sieve).1
  have hkey := congrArg (Option.map (·.1)) hfirst
  revert hkey
  decide +kernel

end Taken
end ConfigAssembly
