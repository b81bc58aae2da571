import Mathlib.Data.List.Forall2
import ConfigAssembly.Proofs.Configuration.Properties

/-!
# A build goes bottom-up and builds every element once

`Course` says what becomes of a part of a tree in a build: the results are those of the positions
at which something is built, one for each, in the order of the positions; every other position
keeps its instance. A result is that of the job of its element whose children have been built
before (`BuiltAs`). Each of the functions that build has its course, put together from those of
the functions that it calls; `build_bottomUp` is that of a whole configuration.
-/

namespace ConfigAssembly.Configuration

/-- The job of building an instance of a node. -/
def job (s : Services) (event : Option Event) (reserved : List String) (t : PluginType) (n : Node) :
    Job :=
  ⟨t, n, s.configuration, s.sources, s.visitors, event, reserved⟩

/-- A result is that of the job of a node with other children below it, and its instance is what is
noted at that node then. -/
def BuiltAs (s : Services) (event : Option Event) (reserved : List String)
    (before after : Option Node) (result : BuildResult) : Prop :=
  ∃ (n : Node) (t : PluginType) (children : List Node), before = some n ∧ n.type = some t ∧
    (job s event reserved t (n.withChildren children)).run.1 = .ok result ∧
    after = some ((n.withChildren children).withBuilt result.built)

/-- The job of a node with other children below it hands on a fault, and no instance is noted. -/
def RaisedAs (s : Services) (event : Option Event) (reserved : List String)
    (before after : Option Node) (f : Fault) : Prop :=
  ∃ (n : Node) (t : PluginType) (children : List Node), before = some n ∧ n.type = some t ∧
    (job s event reserved t (n.withChildren children)).run.1 = .error f ∧
    after = some (n.withChildren children)

/-- How builds end: nothing is left to be built, or the build of the first element that is left
handed on a fault. -/
inductive Ends (s : Services) (event : Option Event) (reserved : Position → List String)
    (before after : Position → Option Node) : List Position → Option Fault → Prop
  | complete : Ends s event reserved before after [] none
  | raised {p : Position} {f : Fault}
    (h : RaisedAs s event (reserved p) (before p) (after p) f) (left : List Position) :
    Ends s event reserved before after (p :: left) (some f)

/-- What becomes of the elements at some positions: of the chosen ones instances are built in the
order of the positions, until none is left or a fault is handed on, and all others keep the
instances that they have. -/
structure Course (s : Services) (event : Option Event) (reserved : Position → List String)
    (chosen : Position → Bool) (positions : List Position) (before after : Position → Option Node)
    (b : Built) (done left : List Position) : Prop where
  split : positions.filter chosen = done ++ left
  built : List.Forall₂ (fun p => BuiltAs s event (reserved p) (before p) (after p)) done b.results
  kept : ∀ p, p ∉ done → (after p).map Node.built = (before p).map Node.built
  ends : Ends s event reserved before after left b.raised

/-- Whether an instance is built of the element at a position, given the children of a root. -/
def isBuiltAmong (ns : List Node) : Position → Bool
  | [] => false
  | i :: p => ns[i]?.any (isBuilt · p)

/-- Whether an instance is built of the element at a position, given the children of a root of a
configuration. -/
def isBuiltElement (ns : List Node) : Position → Bool
  | [] => false
  | i :: p => ns[i]?.any fun n => !isPropertiesBlock n && isBuilt n p

/-- The names of children that belong to the configuration itself. -/
def reservedAt : Position → List String
  | [] => [propertiesName]
  | _ :: _ => []

section Course

variable {s : Services} {event : Option Event}

/-! ### One step after the other -/

namespace Built

variable {α : Type} {b : Built} {left : α} {others : Unit → α × Built}

/-- Nothing is added by nothing. -/
@[simp] theorem append_none (b : Built) : b.append .none = b := by
  simp [append, none]

/-- Nothing comes before. -/
@[simp] theorem none_append (b : Built) : none.append b = b := by
  simp [append, none]

/-- Where a fault was handed on there is nothing else to do. -/
theorem goOn_of_raised {f : Fault} (h : b.raised = some f) : b.goOn left others = (left, b) := by
  rw [goOn, h]
  rfl

/-- Otherwise the others follow. -/
theorem goOn_of_none (h : b.raised = .none) :
    b.goOn left others = ((others ()).1, b.append (others ()).2) := by
  rw [goOn, h]
  rfl

/-- Either nothing else was done, or the others followed. -/
theorem goOn_fst (b : Built) (left : α) (others : Unit → α × Built) :
    (b.goOn left others).1 = left ∨ (b.goOn left others).1 = (others ()).1 := by
  cases hb : b.raised with
  | some f => exact Or.inl (by rw [goOn_of_raised hb])
  | none => exact Or.inr (by rw [goOn_of_none hb])

/-- Where no fault was handed on in the end, none was before, and the others followed. -/
theorem goOn_complete (h : (b.goOn left others).2.raised = .none) :
    b.raised = .none ∧ (others ()).2.raised = .none ∧
      b.goOn left others = ((others ()).1, b.append (others ()).2) := by
  cases hb : b.raised with
  | some f =>
    rw [goOn_of_raised hb, hb] at h
    cases h
  | none =>
    rw [goOn_of_none hb, append, hb, Option.none_or] at h
    exact ⟨rfl, h, goOn_of_none hb⟩

/-- After nothing, the others follow. -/
@[simp] theorem none_goOn : none.goOn left others = others () := by
  rw [goOn_of_none rfl, none_append]

end Built

/-- Nothing is built of a node without a plugin type. -/
theorem buildOne_of_none {n : Node} (h : n.type = none) (reserved : List String) :
    buildOne s event reserved n = (n, .none) := by
  rw [buildOne, h]

/-- The result of a build is kept, and its instance noted. -/
theorem buildOne_of_ok {n : Node} {t : PluginType} {reserved : List String} {result : BuildResult}
    (h : n.type = some t) (hr : (job s event reserved t n).run.1 = .ok result) :
    buildOne s event reserved n =
      (n.withBuilt result.built, ⟨[result], (job s event reserved t n).run.2, none⟩) := by
  unfold job at hr
  rw [buildOne, h]
  dsimp only
  split
  · rename_i result' log heq
    rw [heq] at hr
    obtain rfl := Except.ok.inj hr
    rw [job, heq]
  · rename_i f log heq
    rw [heq] at hr
    cases hr

/-- A fault that a build hands on is all that comes of it. -/
theorem buildOne_of_error {n : Node} {t : PluginType} {reserved : List String} {f : Fault}
    (h : n.type = some t) (hr : (job s event reserved t n).run.1 = .error f) :
    buildOne s event reserved n = (n, ⟨[], (job s event reserved t n).run.2, some f⟩) := by
  unfold job at hr
  rw [buildOne, h]
  dsimp only
  split
  · rename_i result' log heq
    rw [heq] at hr
    cases hr
  · rename_i f' log heq
    rw [heq] at hr
    obtain rfl := Except.error.inj hr
    rw [job, heq]

variable (s event) in
/-- At most the instance of a node is changed when it is built. -/
theorem exists_buildOne_eq (reserved : List String) (n : Node) :
    ∃ v, (buildOne s event reserved n).1 = n.withBuilt v := by
  cases ht : n.type with
  | none =>
    rw [buildOne_of_none ht]
    exact ⟨n.built, by cases n; rfl⟩
  | some t =>
    cases hr : (job s event reserved t n).run.1 with
    | ok result =>
      rw [buildOne_of_ok ht hr]
      exact ⟨result.built, rfl⟩
    | error f =>
      rw [buildOne_of_error ht hr]
      exact ⟨n.built, by cases n; rfl⟩

/-- A node whose plugin defers is built alone. -/
theorem buildNode_of_deferring {n : Node} (h : deferring n = true) :
    buildNode s event n = buildOne s event [] n := by
  obtain ⟨name, attributes, text, slot, children⟩ := n
  have hd : slot.type.any (·.deferChildren) = true := h
  rw [buildNode, if_pos hd]

/-- Any other node is built after those below it. -/
theorem buildNode_of_not_deferring {n : Node} (h : deferring n = false) :
    buildNode s event n =
      (buildNodes s event n.children).2.goOn (n.withChildren (buildNodes s event n.children).1)
        fun _ => buildOne s event [] (n.withChildren (buildNodes s event n.children).1) := by
  obtain ⟨name, attributes, text, slot, children⟩ := n
  have hd : slot.type.any (·.deferChildren) = false := h
  rw [buildNode, if_neg (by simp [hd])]
  rfl

/-- Several nodes are built one after the other. -/
theorem buildNodes_cons (n : Node) (ns : List Node) :
    buildNodes s event (n :: ns) =
      let (ms, b) := (buildNode s event n).2.goOn ns fun _ => buildNodes s event ns
      ((buildNode s event n).1 :: ms, b) := rfl

/-- A properties block is passed over. -/
theorem buildElements_cons_of_block {n : Node} (h : isPropertiesBlock n = true) (ns : List Node) :
    buildElements s event (n :: ns) =
      (n :: (buildElements s event ns).1, (buildElements s event ns).2) := by
  rw [buildElements, h, if_pos rfl]
  dsimp only
  rw [Built.none_goOn]

/-- Other children of a root are built one after the other. -/
theorem buildElements_cons {n : Node} (h : isPropertiesBlock n = false) (ns : List Node) :
    buildElements s event (n :: ns) =
      let (ms, b) := (buildNode s event n).2.goOn ns fun _ => buildElements s event ns
      ((buildNode s event n).1 :: ms, b) := by
  rw [buildElements, h]
  rfl

/-- A root is built after its children. -/
theorem buildRoot_eq (root : Node) :
    buildRoot s event root =
      (buildElements s event root.children).2.goOn
        (root.withChildren (buildElements s event root.children).1) fun _ =>
        buildOne s event [propertiesName]
          (root.withChildren (buildElements s event root.children).1) := rfl

/-! ### Courses put together -/

/-- Where nothing is chosen, nothing happens. -/
theorem Course.idle {chosen : Position → Bool} (hchosen : ∀ p, chosen p = false)
    (reserved : Position → List String) (positions : List Position)
    (at? : Position → Option Node) :
    Course s event reserved chosen positions at? at? .none [] [] where
  split := List.filter_eq_nil_iff.2 fun p _ => by simp [hchosen p]
  built := .nil
  kept _ _ := rfl
  ends := .complete

/-- Where no fault is handed on, nothing is left. -/
theorem Course.left_eq_nil {reserved : Position → List String} {chosen : Position → Bool}
    {positions : List Position} {before after : Position → Option Node} {b : Built}
    {done left : List Position}
    (h : Course s event reserved chosen positions before after b done left)
    (hb : b.raised = none) : left = [] := by
  have hends := h.ends
  rw [hb] at hends
  cases hends
  rfl

/-- The positions of several trees that are chosen are those in the first one and those in the
others. -/
theorem filter_positionsAll_cons {n : Node} {ns : List Node} {chosen first rest : Position → Bool}
    (hfirst : ∀ p, chosen (0 :: p) = first p) (hrest : ∀ p, chosen (Position.next p) = rest p) :
    (Tree.positionsAll (n :: ns)).filter chosen =
      (n.positions.filter first).map (0 :: ·) ++
        ((Tree.positionsAll ns).filter rest).map Position.next := by
  rw [Tree.positionsAll, List.filter_append, List.filter_map, List.filter_map]
  congr 2
  · exact List.filter_congr fun p _ => hfirst p
  · exact List.filter_congr fun p _ => hrest p

/-- Positions are kept apart by their first steps. -/
theorem not_mem_done {p : Position} {done done' : List Position} :
    (0 :: p ∉ done.map (0 :: ·) ++ done'.map Position.next ↔ p ∉ done) ∧
      (p.next ∉ done.map (0 :: ·) ++ done'.map Position.next ↔ p ∉ done') := by
  have hzero : ∀ q : Position, q.next ≠ 0 :: p := by
    intro q
    cases q <;> simp [Position.next]
  have hnext : ∀ q : Position, 0 :: q ≠ p.next := by
    intro q
    cases p <;> simp [Position.next]
  constructor
  · simp [hzero]
  · simp [hnext, Position.next_injective.eq_iff]

section Several

variable {n n' : Node} {ns ns' : List Node} {chosen first rest : Position → Bool} {b b' : Built}
variable {done left done' left' : List Position}

/-- The course for several trees is that for the first one if a fault is handed on there. -/
theorem Course.cons_of_raised {f : Fault} (hfirst : ∀ p, chosen (0 :: p) = first p)
    (h : Course s event (fun _ => []) first n.positions n.at? n'.at? b done left)
    (hb : b.raised = some f) :
    ∃ left', Course s event (fun _ => []) chosen (Tree.positionsAll (n :: ns))
      (Tree.atAll? (n :: ns)) (Tree.atAll? (n' :: ns)) b (done.map (0 :: ·)) left' := by
  obtain ⟨hsplit, hbuilt, hkept, hends⟩ := h
  refine ⟨left.map (0 :: ·) ++
    ((Tree.positionsAll ns).filter fun p => chosen (Position.next p)).map Position.next, ?_, ?_,
    fun p => ?_, ?_⟩
  · rw [filter_positionsAll_cons hfirst fun _ => rfl, hsplit, List.map_append, List.append_assoc]
  · exact List.forall₂_map_left_iff.2 hbuilt
  · have hmem := fun p => (@not_mem_done p done [])
    simp only [List.map_nil, List.append_nil] at hmem
    induction p using Tree.forall_position with
    | hnil => exact fun _ => rfl
    | hzero p =>
      rw [(hmem p).1]
      exact hkept p
    | hnext p _ =>
      rw [Tree.atAll?_cons_next, Tree.atAll?_cons_next]
      exact fun _ => rfl
  · rw [hb] at hends ⊢
    cases hends with
    | raised h left => exact .raised h _

/-- Otherwise that for the others follows. -/
theorem Course.cons (hfirst : ∀ p, chosen (0 :: p) = first p)
    (hrest : ∀ p, chosen (Position.next p) = rest p)
    (h : Course s event (fun _ => []) first n.positions n.at? n'.at? b done left)
    (hb : b.raised = none)
    (hs : Course s event (fun _ => []) rest (Tree.positionsAll ns) (Tree.atAll? ns)
      (Tree.atAll? ns') b' done' left') :
    Course s event (fun _ => []) chosen (Tree.positionsAll (n :: ns)) (Tree.atAll? (n :: ns))
      (Tree.atAll? (n' :: ns')) (b.append b') (done.map (0 :: ·) ++ done'.map Position.next)
      (left'.map Position.next) where
  split := by
    obtain rfl := h.left_eq_nil hb
    rw [filter_positionsAll_cons hfirst hrest, h.split, hs.split, List.append_nil, List.map_append,
      List.append_assoc]
  built := by
    refine List.rel_append (List.forall₂_map_left_iff.2 h.built) (List.forall₂_map_left_iff.2 ?_)
    simpa only [Tree.atAll?_cons_next] using hs.built
  kept p := by
    induction p using Tree.forall_position with
    | hnil => exact fun _ => rfl
    | hzero p =>
      rw [not_mem_done.1]
      exact h.kept p
    | hnext p _ =>
      rw [not_mem_done.2, Tree.atAll?_cons_next, Tree.atAll?_cons_next]
      exact hs.kept p
  ends := by
    have hraised : (b.append b').raised = b'.raised := by rw [Built.append, hb, Option.none_or]
    have hends := hs.ends
    rw [hraised]
    generalize b'.raised = raised at hends ⊢
    cases hends with
    | complete => exact .complete
    | raised h left =>
      refine .raised ?_ _
      rwa [Tree.atAll?_cons_next, Tree.atAll?_cons_next]

end Several

section Root

variable {n : Node} {reserved : Position → List String} {chosen below : Position → Bool}
variable {b : Built} {done left : List Position}

/-- The positions below a root that are chosen. -/
theorem filter_positionsAll_children (hcons : ∀ i p, chosen (i :: p) = below (i :: p)) :
    (Tree.positionsAll n.children).filter chosen = (Tree.positionsAll n.children).filter below := by
  refine List.filter_congr fun p hp => ?_
  cases p with
  | nil => exact absurd hp (Tree.nil_not_mem_positionsAll n.children)
  | cons i p => exact hcons i p

/-- What becomes of the elements below a root, whatever becomes of the root. -/
theorem Course.under (after : Node) (hreserved : ∀ i p, reserved (i :: p) = [])
    (h : Course s event (fun _ => []) below (Tree.positionsAll n.children)
      (Tree.atAll? n.children) (Tree.atAll? after.children) b done left) :
    List.Forall₂ (fun p => BuiltAs s event (reserved p) (n.at? p) (after.at? p)) done b.results ∧
      (∀ i p, i :: p ∉ done →
        (after.at? (i :: p)).map Node.built = (n.at? (i :: p)).map Node.built) ∧
      Ends s event reserved n.at? after.at? left b.raised := by
  obtain ⟨_, hbuilt, hkept, hends⟩ := h
  refine ⟨hbuilt.imp fun p result hr => ?_, fun i p hp => ?_, ?_⟩
  · cases p with
    | nil =>
      obtain ⟨_, _, _, hbefore, _⟩ := hr
      cases hbefore
    | cons i p =>
      rw [hreserved, Tree.at?_eq_atAll?, Tree.at?_eq_atAll?]
      exact hr
  · rw [Tree.at?_eq_atAll?, Tree.at?_eq_atAll?]
    exact hkept _ hp
  · generalize b.raised = raised at hends ⊢
    cases hends with
    | complete => exact .complete
    | @raised p f hr left =>
      refine .raised ?_ left
      cases p with
      | nil =>
        obtain ⟨_, _, _, hbefore, _⟩ := hr
        cases hbefore
      | cons i p =>
        rw [hreserved, Tree.at?_eq_atAll?, Tree.at?_eq_atAll?]
        exact hr

section Last

variable {children : List Node} (hnil : chosen [] = n.type.isSome)
variable (hcons : ∀ i p, chosen (i :: p) = below (i :: p))
variable (hreserved : ∀ i p, reserved (i :: p) = [])
variable (h : Course s event (fun _ => []) below (Tree.positionsAll n.children)
  (Tree.atAll? n.children) (Tree.atAll? children) b done left)

include hcons h in
/-- Of the positions that are chosen in a tree that of the root is the last. -/
theorem Course.split_root :
    n.positions.filter chosen = done ++ left ++ [[]].filter chosen := by
  rw [Tree.positions_eq, List.filter_append, filter_positionsAll_children hcons, h.split]

include hcons hreserved h in
/-- If a fault is handed on below a root, the root is left as well. -/
theorem Course.root_of_raised {f : Fault} (hb : b.raised = some f) :
    Course s event reserved chosen n.positions n.at? (n.withChildren children).at? b done
      (left ++ [[]].filter chosen) := by
  obtain ⟨hbuilt, hkept, hends⟩ := Course.under (n.withChildren children) hreserved h
  refine ⟨by rw [h.split_root hcons, List.append_assoc], hbuilt, fun p hp => ?_, ?_⟩
  · cases p with
    | nil => rfl
    | cons i p => exact hkept i p hp
  · rw [hb] at hends ⊢
    cases hends with
    | raised hr left => exact .raised hr _

include hnil hcons hreserved h in
/-- If nothing is built of a root, nothing else is done. -/
theorem Course.root_of_none (hb : b.raised = none) (ht : n.type = none) :
    Course s event reserved chosen n.positions n.at? (n.withChildren children).at? b done [] := by
  obtain ⟨hbuilt, hkept, hends⟩ := Course.under (n.withChildren children) hreserved h
  have hsplit := h.split_root hcons
  obtain rfl := h.left_eq_nil hb
  refine ⟨by simp [hsplit, hnil, ht], hbuilt, fun p hp => ?_, hends⟩
  cases p with
  | nil => rfl
  | cons i p => exact hkept i p hp

variable {t : PluginType} (hb : b.raised = none) (ht : n.type = some t)

include hnil hcons hreserved h hb ht in
/-- A root of which an instance is built is the last element. -/
theorem Course.root_of_ok {result : BuildResult}
    (hr : (job s event (reserved []) t (n.withChildren children)).run.1 = .ok result)
    (log : Log) :
    Course s event reserved chosen n.positions n.at?
      ((n.withChildren children).withBuilt result.built).at? (b.append ⟨[result], log, none⟩)
      (done ++ [[]]) [] := by
  obtain ⟨hbuilt, hkept, _⟩ :=
    Course.under ((n.withChildren children).withBuilt result.built) hreserved h
  have hsplit := h.split_root hcons
  obtain rfl := h.left_eq_nil hb
  have hraised : (b.append ⟨[result], log, none⟩).raised = none := by
    rw [Built.append, hb, Option.none_or]
  refine ⟨by simp [hsplit, hnil, ht],
    List.rel_append hbuilt (.cons ⟨n, t, children, rfl, ht, hr, rfl⟩ .nil), fun p hp => ?_, ?_⟩
  · cases p with
    | nil => simp at hp
    | cons i p => exact hkept i p fun hmem => hp (List.mem_append_left _ hmem)
  · rw [hraised]
    exact .complete

include hnil hcons hreserved h hb ht in
/-- A root whose build hands on a fault is all that is left. -/
theorem Course.root_of_error {f : Fault}
    (hr : (job s event (reserved []) t (n.withChildren children)).run.1 = .error f)
    (log : Log) :
    Course s event reserved chosen n.positions n.at? (n.withChildren children).at?
      (b.append ⟨[], log, some f⟩) done [[]] := by
  obtain ⟨hbuilt, hkept, _⟩ := Course.under (n.withChildren children) hreserved h
  have hsplit := h.split_root hcons
  obtain rfl := h.left_eq_nil hb
  have hraised : (b.append ⟨[], log, some f⟩).raised = some f := by
    rw [Built.append, hb, Option.none_or]
  refine ⟨by simp [hsplit, hnil, ht], by simpa [Built.append] using hbuilt, fun p hp => ?_, ?_⟩
  · cases p with
    | nil => rfl
    | cons i p => exact hkept i p hp
  · rw [hraised]
    exact .raised ⟨n, t, children, rfl, ht, hr, rfl⟩ []

include hnil hcons hreserved h in
/-- The course for a tree from that for the children of its root: the root comes last. -/
theorem Course.root :
    ∃ done' left', Course s event reserved chosen n.positions n.at?
      (b.goOn (n.withChildren children) fun _ =>
        buildOne s event (reserved []) (n.withChildren children)).1.at?
      (b.goOn (n.withChildren children) fun _ =>
        buildOne s event (reserved []) (n.withChildren children)).2 done' left' := by
  cases hb : b.raised with
  | some f =>
    rw [Built.goOn_of_raised hb]
    exact ⟨_, _, h.root_of_raised hcons hreserved hb⟩
  | none =>
    rw [Built.goOn_of_none hb]
    cases ht : n.type with
    | none =>
      rw [buildOne_of_none (show (n.withChildren children).type = none from ht), Built.append_none]
      exact ⟨_, _, h.root_of_none hnil hcons hreserved hb ht⟩
    | some t =>
      have htype : (n.withChildren children).type = some t := ht
      cases hr : (job s event (reserved []) t (n.withChildren children)).run.1 with
      | ok result =>
        rw [buildOne_of_ok htype hr]
        exact ⟨_, _, h.root_of_ok hnil hcons hreserved hb ht hr _⟩
      | error f =>
        rw [buildOne_of_error htype hr]
        exact ⟨_, _, h.root_of_error hnil hcons hreserved hb ht hr _⟩

end Last

end Root

variable (s event)

mutual

/-- What becomes of a node and the elements below it. -/
theorem course_buildNode : (n : Node) →
    ∃ done left, Course s event (fun _ => []) (isBuilt n) n.positions n.at?
      (buildNode s event n).1.at? (buildNode s event n).2 done left
  | ⟨name, attributes, text, slot, children⟩ => by
    obtain ⟨done, left, hnodes⟩ := course_buildNodes children
    cases hd : deferring ⟨name, attributes, text, slot, children⟩ with
    | true =>
      have hcons : ∀ i p, isBuilt ⟨name, attributes, text, slot, children⟩ (i :: p) = false := by
        intro i p
        simp [isBuilt, hd]
      rw [buildNode_of_deferring hd]
      have hidle : Course s event (fun _ => []) (fun _ => false) (Tree.positionsAll children)
          (Tree.atAll? children) (Tree.atAll? children) .none [] [] := .idle (fun _ => rfl) _ _ _
      have hroot := @Course.root s event ⟨name, attributes, text, slot, children⟩ (fun _ => []) _ _
        _ _ _ children rfl hcons (fun _ _ => rfl) hidle
      rwa [Built.none_goOn] at hroot
    | false =>
      have hcons : ∀ i p, isBuilt ⟨name, attributes, text, slot, children⟩ (i :: p) =
          isBuiltAmong children (i :: p) := by
        intro i p
        simp [isBuilt, isBuiltAmong, hd]
      rw [buildNode_of_not_deferring hd]
      exact Course.root rfl hcons (fun _ _ => rfl) hnodes

/-- What becomes of several trees. -/
theorem course_buildNodes : (ns : List Node) →
    ∃ done left, Course s event (fun _ => []) (isBuiltAmong ns) (Tree.positionsAll ns)
      (Tree.atAll? ns) (Tree.atAll? (buildNodes s event ns).1) (buildNodes s event ns).2 done left
  | [] => ⟨[], [], .idle (fun p => by cases p <;> rfl) _ _ _⟩
  | n :: ns => by
    obtain ⟨done, left, hfirst⟩ := course_buildNode n
    obtain ⟨done', left', hrest⟩ := course_buildNodes ns
    rw [buildNodes_cons]
    cases hb : (buildNode s event n).2.raised with
    | some f =>
      rw [Built.goOn_of_raised hb]
      exact ⟨_, Course.cons_of_raised (fun _ => rfl) hfirst hb⟩
    | none =>
      rw [Built.goOn_of_none hb]
      exact ⟨_, _, Course.cons (fun _ => rfl) (fun p => by cases p <;> rfl) hfirst hb hrest⟩

end

/-- What becomes of the children of a root: properties blocks are left out. -/
theorem course_buildElements (ns : List Node) :
    ∃ done left, Course s event (fun _ => []) (isBuiltElement ns) (Tree.positionsAll ns)
      (Tree.atAll? ns) (Tree.atAll? (buildElements s event ns).1) (buildElements s event ns).2 done
      left := by
  induction ns with
  | nil => exact ⟨[], [], .idle (fun p => by cases p <;> rfl) _ _ _⟩
  | cons n ns ih =>
    have hnext : ∀ p, isBuiltElement (n :: ns) (Position.next p) = isBuiltElement ns p := by
      intro p
      cases p <;> rfl
    obtain ⟨done', left', hrest⟩ := ih
    cases hp : isPropertiesBlock n with
    | true =>
      have hzero : ∀ p, isBuiltElement (n :: ns) (0 :: p) = false := by
        intro p
        simp [isBuiltElement, hp]
      rw [buildElements_cons_of_block hp]
      have hcons := Course.cons hzero hnext (.idle (fun _ => rfl) _ n.positions n.at?) rfl hrest
      rw [Built.none_append] at hcons
      exact ⟨_, _, hcons⟩
    | false =>
      have hzero : ∀ p, isBuiltElement (n :: ns) (0 :: p) = isBuilt n p := by
        intro p
        simp [isBuiltElement, hp]
      obtain ⟨done, left, hfirst⟩ := course_buildNode s event n
      rw [buildElements_cons hp]
      cases hb : (buildNode s event n).2.raised with
      | some f =>
        rw [Built.goOn_of_raised hb]
        exact ⟨_, Course.cons_of_raised hzero hfirst hb⟩
      | none =>
        rw [Built.goOn_of_none hb]
        exact ⟨_, _, Course.cons hzero hnext hfirst hb hrest⟩

/-- What becomes of a whole tree: the names of its properties block are reserved at the root. -/
theorem course_buildRoot (root : Node) {chosen : Position → Bool}
    (hnil : chosen [] = root.type.isSome)
    (hcons : ∀ i p, chosen (i :: p) = isBuiltElement root.children (i :: p)) :
    ∃ done left, Course s event reservedAt chosen root.positions root.at?
      (buildRoot s event root).1.at? (buildRoot s event root).2 done left := by
  obtain ⟨done, left, h⟩ := course_buildElements s event root.children
  exact Course.root hnil hcons (fun _ _ => rfl) h

/-- The configuration that is built: plugin types have been looked up. -/
def ready (c : Configuration) : Configuration := if c.resolved then c else c.setup.1

/-- A configuration that was not set up is set up first. -/
theorem ready_of_not_resolved {c : Configuration} (h : c.resolved = false) :
    c.ready = c.setup.1 := by
  simp [ready, h]

/-- What comes of a build, apart from the report. -/
theorem build_eq (c : Configuration) (event : Option Event) :
    (c.build event).configuration = (c.ready.buildResolved event).configuration ∧
      (c.build event).raised = (c.ready.buildResolved event).raised := by
  cases h : c.resolved <;> simp [build, ready, h]

/-- The builds of a first build. -/
theorem built_build {c : Configuration} (hresolved : c.resolved = false) (hresults : c.results = [])
    (event : Option Event) :
    (c.build event).configuration.root =
        (buildRoot c.setup.1.services event c.setup.1.root).1 ∧
      (c.build event).configuration.results =
        (buildRoot c.setup.1.services event c.setup.1.root).2.results ∧
      (c.build event).raised =
        (buildRoot c.setup.1.services event c.setup.1.root).2.raised := by
  obtain ⟨hconfiguration, hraised⟩ := build_eq c event
  rw [hconfiguration, hraised, ready_of_not_resolved hresolved]
  refine ⟨rfl, ?_, rfl⟩
  change c.results ++ (buildRoot c.setup.1.services event c.setup.1.root).2.results = _
  rw [hresults, List.nil_append]

/-- What a first build logs: plugin types are looked up first, and a summary comes at the end. -/
theorem log_build {c : Configuration} (hresolved : c.resolved = false) (event : Option Event) :
    (c.build event).report.log =
      c.setup.2.log ++ ((buildRoot c.setup.1.services event c.setup.1.root).2.log ++
        if (c.build event).raised.isSome then [] else [(c.build event).configuration.summary]) := by
  have hbuild : c.build event =
      ⟨(c.setup.1.buildResolved event).configuration,
        c.setup.2.append (c.setup.1.buildResolved event).report,
        (c.setup.1.buildResolved event).raised⟩ := by
    unfold build
    rw [hresolved]
    rfl
  rw [hbuild]
  rfl

/-- The diagnostics of a first build are those of setting up and then those of its results. -/
theorem diagnostics_build {c : Configuration} (hresolved : c.resolved = false)
    (hresults : c.results = []) (event : Option Event) :
    (c.build event).configuration.diagnostics =
      c.setup.1.diagnostics ++ (c.build event).configuration.results.flatMap (·.diagnostics) := by
  rw [(built_build hresolved hresults event).2.1, (build_eq c event).1,
    ready_of_not_resolved hresolved]
  rfl

/-- A first build of a configuration: the positions are those of the root before setting up. -/
theorem course_build {c : Configuration} (hresolved : c.resolved = false)
    (hresults : c.results = []) (event : Option Event) :
    ∃ done left, c.root.positions.filter (eligible c.registry c.root) = done ++ left ∧
      List.Forall₂
        (fun p => BuiltAs c.setup.1.services event (reservedAt p) (c.setup.1.root.at? p)
          ((c.build event).configuration.root.at? p)) done (c.build event).configuration.results ∧
      (∀ p, p ∉ done → ((c.build event).configuration.root.at? p).map Node.built =
        (c.setup.1.root.at? p).map Node.built) ∧
      Ends c.setup.1.services event reservedAt c.setup.1.root.at?
        (c.build event).configuration.root.at? left (c.build event).raised := by
  have hpositions : c.setup.1.root.positions = c.root.positions := by
    rw [← Tree.positions_map id Slots.built, show c.setup.1.root.map id Slots.built = _ from
      map_built_resolveRoot c.registry c.root, Tree.positions_map]
  obtain ⟨hroot, hresult, hraised⟩ := built_build hresolved hresults event
  obtain ⟨done, left, hsplit, hbuilt, hkept, hends⟩ :=
    course_buildRoot c.setup.1.services event c.setup.1.root
      (show eligible c.registry c.root [] = _ from rfl) (eligible_cons c.registry c.root)
  rw [hroot, hresult, hraised, ← hpositions]
  exact ⟨done, left, hsplit, hbuilt, hkept, hends⟩

end Course

end ConfigAssembly.Configuration
