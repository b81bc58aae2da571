import ConfigAssembly.Proofs.Build.Protocol
import ConfigAssembly.Proofs.Configuration.Locality

/-!
# Elements below a plugin that defers

A plugin that looks after its children has them left alone (`LeftAlone`): their plugin types are not
looked up, they are not reported, no instance is built of them, and setting up and building leave
them as they are with all that is below them. Setting up and building both stop at a plugin that
defers, and for both it is said by the same test which elements they reach (`exposed`, read off the
plugin types after setting up): setting up looks up the elements that are exposed then
(`reaches_eq_exposed`, `lookedUp_perm_visited`), and neither of the two changes what is not exposed
(`at?_resolveRoot_of_not_exposed`, `at?_buildRoot_of_not_exposed`).

The plugin of the root does not count in this test. `leftAlone_below_deferring` says that the
elements that are left alone are just those in a properties block and those that have an element
above them, below the root, whose plugin defers; so the elements below a root whose plugin defers
are looked up and built all the same (`not_forall_leftAlone_below_deferring`).
-/

namespace ConfigAssembly.Configuration

/-! ### Elements that are exposed -/

/-- No element above a position, from the node on that the position starts from, has a plugin that
defers. -/
def exposed : Node → Position → Bool
  | _, [] => true
  | n, i :: p => !deferring n && n.children[i]?.any (exposed · p)

/-- An element below the root is in no properties block, and no element above it, below the root,
has a plugin that defers. -/
def exposedElement (root : Node) : Position → Bool
  | [] => false
  | i :: p => root.children[i]?.any fun n => !isPropertiesBlock n && exposed n p

/-- An element is exposed if it is there and no plugin above it defers. -/
theorem exposed_eq (n : Node) (p : Position) :
    exposed n p = ((n.at? p).isSome &&
      (Position.ancestors p).all fun q => !(n.at? q).any deferring) := by
  induction p generalizing n with
  | nil => simp [exposed, Position.ancestors]
  | cons i p ih =>
    rw [exposed, Position.ancestors, List.all_cons, List.all_map, Tree.at?_nil, Option.any_some,
      Tree.at?_cons]
    cases hc : n.children[i]? with
    | none => simp
    | some c =>
      have hbelow : (fun q => !(n.at? q).any deferring) ∘ (i :: ·) =
          fun q => !(c.at? q).any deferring := by
        funext q
        rw [Function.comp_apply, Tree.at?_cons, hc]
        rfl
      rw [hbelow, Option.any_some, Option.bind_some, ih c, Bool.and_left_comm]

/-- Whether an element below the root is exposed. -/
theorem exposedElement_cons (root : Node) (i : Nat) (p : Position) :
    exposedElement root (i :: p) =
      (root.children[i]?.any (fun n => !isPropertiesBlock n) && (root.at? (i :: p)).isSome &&
        (Position.ancestors p).all fun q => !(root.at? (i :: q)).any deferring) := by
  have hbelow : ∀ q, root.at? (i :: q) = root.children[i]?.bind (·.at? q) :=
    fun q => Tree.at?_cons root i q
  rw [exposedElement]
  simp only [hbelow]
  cases root.children[i]? with
  | none => rfl
  | some n => simp [exposed_eq, Bool.and_assoc]

/-- Below an element whose plugin defers nothing is exposed. -/
theorem exposed_append_cons {n m : Node} {p : Position} (hat : n.at? p = some m)
    (hm : deferring m = true) (i : Nat) (q : Position) : exposed n (p ++ i :: q) = false := by
  induction p generalizing n with
  | nil =>
    obtain rfl : n = m := Option.some.inj hat
    rw [List.nil_append, exposed, hm]
    rfl
  | cons j p ih =>
    rw [List.cons_append, exposed]
    rw [Tree.at?_cons, Option.bind_eq_some_iff] at hat
    obtain ⟨c, hc, hat⟩ := hat
    rw [hc, Option.any_some, ih hat, Bool.and_false]

/-- An element of which an instance is built is exposed. -/
theorem exposed_of_isBuilt {n : Node} {p : Position} (h : isBuilt n p = true) :
    exposed n p = true := by
  induction p generalizing n with
  | nil => rfl
  | cons i p ih =>
    rw [isBuilt, Bool.and_eq_true, Option.any_eq_true] at h
    obtain ⟨hdefers, c, hc, hbelow⟩ := h
    rw [exposed, hdefers, hc, Option.any_some, ih hbelow]
    rfl

/-! ### Functions that stop

Setting up and building go down a tree and stop at some nodes. What they do not reach they leave as
it is; `reach` is the test that follows the same way down. A build that is cut short leaves other
elements as they are as well. -/

/-- Lists that are related element by element are so at every place. -/
theorem rel_getElem? {α β : Type} {R : α → β → Prop} {xs : List α} {ys : List β}
    (h : List.Forall₂ R xs ys) (i : Nat) : Option.Rel R xs[i]? ys[i]? := by
  induction h generalizing i with
  | nil => exact .none
  | cons hxy _ ih =>
    cases i with
    | zero => exact .some hxy
    | succ i => simpa using ih i

section Stop

variable {f : Node → Node} {reach : Node → Position → Bool}

/-- What is not reached is left as it is. -/
theorem at?_eq_of_unreached {stop : Node → Bool} (hnil : ∀ n, reach n [] = true)
    (hcons : ∀ n i p, reach n (i :: p) = (!stop n && n.children[i]?.any (reach · p)))
    (hchildren : ∀ n, List.Forall₂ (fun c c' => c' = c ∨ stop n = false ∧ c' = f c) n.children
      (f n).children) {n : Node} {p : Position} (h : reach n p = false) :
    (f n).at? p = n.at? p := by
  induction p generalizing n with
  | nil =>
    rw [hnil] at h
    cases h
  | cons i p ih =>
    have hrel := rel_getElem? (hchildren n) i
    rw [hcons] at h
    rw [Tree.at?_cons, Tree.at?_cons]
    generalize n.children[i]? = o at h hrel ⊢
    generalize (f n).children[i]? = o' at hrel ⊢
    cases hrel with
    | none => rfl
    | some hc =>
      rcases hc with rfl | ⟨hstop, rfl⟩
      · rfl
      · rw [hstop, Bool.not_false, Bool.true_and, Option.any_some] at h
        exact ih h

/-- At the root properties blocks are passed over instead. -/
theorem at?_cons_eq_of_unreached (hf : ∀ n p, reach n p = false → (f n).at? p = n.at? p)
    {root root' : Node}
    (hchildren : List.Forall₂ (fun n n' => n' = n ∨ isPropertiesBlock n = false ∧ n' = f n)
      root.children root'.children) {i : Nat} {p : Position}
    (h : root.children[i]?.any (fun n => !isPropertiesBlock n && reach n p) = false) :
    root'.at? (i :: p) = root.at? (i :: p) := by
  have hrel := rel_getElem? hchildren i
  rw [Tree.at?_cons, Tree.at?_cons]
  generalize root.children[i]? = o at h hrel ⊢
  generalize root'.children[i]? = o' at hrel ⊢
  cases hrel with
  | none => rfl
  | some hn =>
    rcases hn with rfl | ⟨hp, rfl⟩
    · rfl
    · rw [Option.any_some, hp, Bool.not_false, Bool.true_and] at h
      exact hf _ p h

end Stop

/-! ### Setting up -/

section Setup

variable (r : Registry)

/-- Looking plugin types up reaches the elements that are exposed then. -/
theorem reaches_eq_exposed (n : Node) (p : Position) :
    reaches r n p = exposed (resolveNode r n) p := by
  induction p generalizing n with
  | nil => rfl
  | cons i p ih =>
    have hdefer : deferring (resolveNode r n) = defers r n.name := by
      rw [deferring, type_resolveNode, defers]
    rw [reaches, exposed, hdefer, children_resolveNode]
    cases defers r n.name with
    | true => rfl
    | false =>
      rw [if_neg (by decide), List.getElem?_map]
      cases n.children[i]? with
      | none => rfl
      | some c =>
        rw [Option.map_some, Option.any_some, Option.any_some, ih c]

/-- Resolving a node does not change whether it is a block of properties. -/
theorem isPropertiesBlock_resolveNode (n : Node) :
    isPropertiesBlock (resolveNode r n) = isPropertiesBlock n := by
  cases n
  rfl

/-- Whether setting up looks up the plugin type of the element at a position, given the children of
a root of a configuration. -/
def reachesElement (ns : List Node) : Position → Bool
  | [] => false
  | i :: p => ns[i]?.any fun n => !isPropertiesBlock n && reaches r n p

/-- Setting up reaches the elements that are exposed after it. -/
theorem reachesElement_eq_exposed (root : Node) (p : Position) :
    reachesElement r root.children p = exposedElement (resolveRoot r root) p := by
  cases p with
  | nil => rfl
  | cons i p =>
    rw [reachesElement, exposedElement, children_resolveRoot, List.getElem?_map]
    cases root.children[i]? with
    | none => rfl
    | some n =>
      rw [Option.map_some, Option.any_some, Option.any_some]
      cases hp : isPropertiesBlock n with
      | true =>
        rw [if_pos rfl, hp]
        rfl
      | false =>
        rw [if_neg (by decide), isPropertiesBlock_resolveNode, hp, reaches_eq_exposed]

/-- After setting up, an element is exposed if it is in no properties block and no plugin above it,
below the root, defers. -/
theorem exposedElement_resolveRoot {root : Node} {i : Nat} {p : Position}
    (hat : (root.at? (i :: p)).isSome = true) :
    exposedElement (resolveRoot r root) (i :: p) =
      (root.children[i]?.any (fun n => !isPropertiesBlock n) &&
        (Position.ancestors p).all fun q =>
          !((resolveRoot r root).at? (i :: q)).any deferring) := by
  have hblock : (resolveRoot r root).children[i]?.any (fun n => !isPropertiesBlock n) =
      root.children[i]?.any (fun n => !isPropertiesBlock n) := by
    rw [children_resolveRoot, List.getElem?_map]
    cases root.children[i]? with
    | none => rfl
    | some n =>
      rw [Option.map_some, Option.any_some, Option.any_some]
      split
      · rfl
      · rw [isPropertiesBlock_resolveNode]
  have hsome : ((resolveRoot r root).at? (i :: p)).isSome = true := by
    have hbuilt : ((resolveRoot r root).at? (i :: p)).map Node.built =
        (root.at? (i :: p)).map Node.built := by
      rw [map_built_at?, map_built_at?, map_built_resolveRoot]
    have hboth := congrArg Option.isSome hbuilt
    rw [Option.isSome_map, Option.isSome_map] at hboth
    exact hboth.trans hat
  rw [exposedElement_cons, hblock, hsome, Bool.and_true]

/-- Setting up goes on to the children of a node unless its plugin defers. -/
theorem forall₂_resolveNode (n : Node) :
    List.Forall₂ (fun c c' => c' = c ∨ defers r n.name = false ∧ c' = resolveNode r c) n.children
      (resolveNode r n).children := by
  rw [children_resolveNode]
  cases defers r n.name with
  | true => exact List.forall₂_same.2 fun _ _ => Or.inl rfl
  | false =>
    rw [if_neg (by decide), List.forall₂_map_right_iff]
    exact List.forall₂_same.2 fun _ _ => Or.inr ⟨rfl, rfl⟩

/-- At the root it goes on to the children that declare no properties. -/
theorem forall₂_resolveRoot (root : Node) :
    List.Forall₂ (fun n n' => n' = n ∨ isPropertiesBlock n = false ∧ n' = resolveNode r n)
      root.children (resolveRoot r root).children := by
  rw [children_resolveRoot, List.forall₂_map_right_iff]
  refine List.forall₂_same.2 fun n _ => ?_
  cases isPropertiesBlock n with
  | true => exact Or.inl rfl
  | false => exact Or.inr ⟨rfl, rfl⟩

/-- Elements that are not exposed are left as they are by setting up. -/
theorem at?_resolveRoot_of_not_exposed {root : Node} {i : Nat} {p : Position}
    (h : exposedElement (resolveRoot r root) (i :: p) = false) :
    (resolveRoot r root).at? (i :: p) = root.at? (i :: p) := by
  rw [← reachesElement_eq_exposed, reachesElement] at h
  refine at?_cons_eq_of_unreached (fun n p => ?_) (forall₂_resolveRoot r root) h
  exact at?_eq_of_unreached (fun _ => rfl) (fun _ _ _ => rfl) (forall₂_resolveNode r)

/-- What is reached from the children of a root that are no properties blocks, in the order of
positions. -/
theorem reached_elements (ns : List Node) :
    reached r (ns.filter fun n => !isPropertiesBlock n) =
      ((Tree.positionsAll ns).filter (reachesElement r ns)).filterMap (Tree.atAll? ns) := by
  induction ns with
  | nil => rfl
  | cons n ns ih =>
    have hzero : reachesElement r (n :: ns) ∘ (0 :: ·) =
        fun p => !isPropertiesBlock n && reaches r n p := rfl
    have hnext : reachesElement r (n :: ns) ∘ Position.next = reachesElement r ns := by
      funext p
      cases p <;> rfl
    have hatZero : Tree.atAll? (n :: ns) ∘ (0 :: ·) = n.at? := rfl
    have hatNext : Tree.atAll? (n :: ns) ∘ Position.next = Tree.atAll? ns :=
      funext fun p => Tree.atAll?_cons_next n ns p
    rw [Tree.positionsAll, List.filter_append, List.filterMap_append, List.filter_map,
      List.filter_map, List.filterMap_map, List.filterMap_map, hzero, hnext, hatZero, hatNext,
      ← ih, List.filter_cons]
    cases isPropertiesBlock n with
    | true => simp
    | false =>
      rw [Bool.not_false, if_pos rfl, reached_cons]
      rfl

end Setup

/-- The positions of the elements below the root whose plugin types setting up looks up. -/
def visited (c : Configuration) : List Position :=
  (Tree.positionsAll c.root.children).filter (exposedElement c.setup.1.root)

/-- Level by level, setting up looks up the plugin types of these elements, each once. -/
theorem lookedUp_perm_visited (c : Configuration) :
    (lookedUp c.registry c.elements).Perm (c.visited.filterMap c.root.at?) := by
  have hvisited : c.visited.filterMap c.root.at? = reached c.registry c.elements := by
    have hexposed : exposedElement c.setup.1.root = reachesElement c.registry c.root.children :=
      funext fun p => (reachesElement_eq_exposed c.registry c.root p).symm
    have hat : ∀ p ∈ Tree.positionsAll c.root.children,
        c.root.at? p = Tree.atAll? c.root.children p := by
      intro p hp
      cases p with
      | nil => exact absurd hp (Tree.nil_not_mem_positionsAll c.root.children)
      | cons i p => exact Tree.at?_eq_atAll? c.root i p
    unfold visited elements
    rw [reached_elements, hexposed]
    exact List.filterMap_congr fun p hp => hat p (List.mem_filter.1 hp).1
  rw [hvisited]
  exact lookedUp_perm c.registry c.elements

/-! ### Building -/

section Build

variable (s : Services) (event : Option Event)

/-- Of several nodes each is built, unless a fault was handed on before. -/
theorem forall₂_buildNodes (ns : List Node) :
    List.Forall₂ (fun n n' => n' = n ∨ n' = (buildNode s event n).1) ns
      (buildNodes s event ns).1 := by
  induction ns with
  | nil => exact .nil
  | cons n ns ih =>
    rw [buildNodes_cons]
    refine .cons (Or.inr rfl) ?_
    rcases Built.goOn_fst (buildNode s event n).2 ns (fun _ => buildNodes s event ns) with h | h
    · rw [h]
      exact List.forall₂_same.2 fun _ _ => Or.inl rfl
    · rw [h]
      exact ih

/-- So is each of the children of a root that declare no properties. -/
theorem forall₂_buildElements (ns : List Node) :
    List.Forall₂ (fun n n' => n' = n ∨ isPropertiesBlock n = false ∧ n' = (buildNode s event n).1)
      ns (buildElements s event ns).1 := by
  induction ns with
  | nil => exact .nil
  | cons n ns ih =>
    cases hp : isPropertiesBlock n with
    | true =>
      rw [buildElements_cons_of_block hp]
      exact .cons (Or.inl rfl) ih
    | false =>
      rw [buildElements_cons hp]
      refine .cons (Or.inr ⟨hp, rfl⟩) ?_
      rcases Built.goOn_fst (buildNode s event n).2 ns (fun _ => buildElements s event ns) with
        h | h
      · rw [h]
        exact List.forall₂_same.2 fun _ _ => Or.inl rfl
      · rw [h]
        exact ih

/-- What a build makes of a node: it may note an instance, and it goes on to the children unless the
plugin defers. -/
theorem exists_buildNode_fills (n : Node) :
    ∃ children v, (buildNode s event n).1 = (n.withChildren children).withBuilt v ∧
      List.Forall₂ (fun c c' => c' = c ∨ deferring n = false ∧ c' = (buildNode s event c).1)
        n.children children := by
  cases hd : deferring n with
  | true =>
    obtain ⟨v, hv⟩ := exists_buildOne_eq s event [] n
    rw [buildNode_of_deferring hd]
    refine ⟨n.children, v, ?_, List.forall₂_same.2 fun _ _ => Or.inl rfl⟩
    rw [hv, Node.withChildren_children]
  | false =>
    rw [buildNode_of_not_deferring hd]
    have hbelow := (forall₂_buildNodes s event n.children).imp
      fun c c' hc => (hc.imp_right fun h => (⟨rfl, h⟩ : false = false ∧ _))
    rcases Built.goOn_fst (buildNodes s event n.children).2
      (n.withChildren (buildNodes s event n.children).1)
      (fun _ => buildOne s event [] (n.withChildren (buildNodes s event n.children).1)) with h | h
    · exact ⟨_, n.built, by rw [h]; rfl, hbelow⟩
    · obtain ⟨v, hv⟩ := exists_buildOne_eq s event []
        (n.withChildren (buildNodes s event n.children).1)
      exact ⟨_, v, by rw [h, hv], hbelow⟩

/-- What a build makes of a root: it may note an instance, and it goes on to the children that
declare no properties. -/
theorem exists_buildRoot_fills (root : Node) :
    ∃ children v, (buildRoot s event root).1 = (root.withChildren children).withBuilt v ∧
      List.Forall₂
        (fun n n' => n' = n ∨ isPropertiesBlock n = false ∧ n' = (buildNode s event n).1)
        root.children children := by
  rw [buildRoot_eq]
  have hbelow := forall₂_buildElements s event root.children
  rcases Built.goOn_fst (buildElements s event root.children).2
    (root.withChildren (buildElements s event root.children).1)
    (fun _ => buildOne s event [propertiesName]
      (root.withChildren (buildElements s event root.children).1)) with h | h
  · exact ⟨_, root.built, by rw [h]; rfl, hbelow⟩
  · obtain ⟨v, hv⟩ := exists_buildOne_eq s event [propertiesName]
      (root.withChildren (buildElements s event root.children).1)
    exact ⟨_, v, by rw [h, hv], hbelow⟩

/-- Elements that are not exposed are left as they are by building. -/
theorem at?_buildRoot_of_not_exposed {root : Node} {i : Nat} {p : Position}
    (h : exposedElement root (i :: p) = false) :
    (buildRoot s event root).1.at? (i :: p) = root.at? (i :: p) := by
  have hroot : List.Forall₂
      (fun n n' => n' = n ∨ isPropertiesBlock n = false ∧ n' = (buildNode s event n).1)
      root.children (buildRoot s event root).1.children := by
    obtain ⟨children, v, hv, hbelow⟩ := exists_buildRoot_fills s event root
    rw [hv]
    exact hbelow
  have hnode : ∀ n, List.Forall₂
      (fun c c' => c' = c ∨ deferring n = false ∧ c' = (buildNode s event c).1) n.children
      (buildNode s event n).1.children := by
    intro n
    obtain ⟨children, v, hv, hbelow⟩ := exists_buildNode_fills s event n
    rw [hv]
    exact hbelow
  refine at?_cons_eq_of_unreached (fun n p => ?_) hroot h
  exact at?_eq_of_unreached (fun _ => rfl) (fun _ _ _ => rfl) hnode

end Build

/-- Elements of which an instance is built are looked up. -/
theorem exposedElement_of_eligible {r : Registry} {root : Node} {i : Nat} {p : Position}
    (h : eligible r root (i :: p) = true) :
    exposedElement (resolveRoot r root) (i :: p) = true := by
  rw [eligible_cons, Option.any_eq_true] at h
  obtain ⟨n, hn, hbuilt⟩ := h
  rw [Bool.and_eq_true] at hbuilt
  rw [exposedElement, hn, Option.any_some, hbuilt.1, exposed_of_isBuilt hbuilt.2]
  rfl

/-! ### Elements that are left alone -/

/-- Nothing happens to the element at a position: its plugin type is not looked up, no instance is
built of it, and neither setting up nor a first build changes what is there or below. -/
structure LeftAlone (c : Configuration) (event : Option Event) (p : Position) : Prop where
  unvisited : p ∉ c.visited
  setup : c.setup.1.root.at? p = c.root.at? p
  unbuilt : ∀ e ∈ c.placed event, e.1 ≠ p
  build : (c.build event).configuration.root.at? p = c.root.at? p

/-- An element below the root is left alone if it is not exposed after setting up. -/
theorem leftAlone_of_not_exposed {c : Configuration} (hresolved : c.resolved = false)
    (event : Option Event) {i : Nat} {p : Position}
    (h : exposedElement c.setup.1.root (i :: p) = false) : c.LeftAlone event (i :: p) := by
  have hsetup : c.setup.1.root.at? (i :: p) = c.root.at? (i :: p) :=
    at?_resolveRoot_of_not_exposed c.registry h
  constructor
  · intro hmem
    have hexposed := (List.mem_filter.1 hmem).2
    rw [h] at hexposed
    cases hexposed
  · exact hsetup
  · rintro ⟨q, result⟩ he rfl
    have hmem := (List.of_mem_zip he).1
    have hexposed := exposedElement_of_eligible (List.mem_filter.1 hmem).2
    rw [show resolveRoot c.registry c.root = c.setup.1.root from rfl, h] at hexposed
    cases hexposed
  · rw [(build_eq c event).1, ready_of_not_resolved hresolved, ← hsetup]
    exact at?_buildRoot_of_not_exposed c.setup.1.services event h

/-- An element that is left alone is not exposed after setting up. -/
theorem LeftAlone.not_exposed {c : Configuration} {event : Option Event} {i : Nat} {p : Position}
    (h : c.LeftAlone event (i :: p)) (hat : (c.root.at? (i :: p)).isSome = true) :
    exposedElement c.setup.1.root (i :: p) = false := by
  by_contra he
  rw [Bool.not_eq_false] at he
  have hposition : i :: p ∈ Tree.positionsAll c.root.children := by
    rw [Tree.mem_positionsAll, ← Tree.at?_eq_atAll?]
    exact hat
  exact h.unvisited (List.mem_filter.2 ⟨hposition, he⟩)

/-- Of the diagnostics of a first build those of setting up are about elements that belong to no
plugin, and no others. -/
theorem filter_missingPlugin_build {c : Configuration} (hresolved : c.resolved = false)
    (hresults : c.results = []) (hdiagnostics : c.diagnostics = []) (event : Option Event) :
    (c.build event).configuration.diagnostics.filter (fun d => d.kind == .missingPlugin) =
      c.setup.1.diagnostics := by
  have hsetup : ∀ d ∈ c.setup.1.diagnostics, d.kind = .missingPlugin := by
    intro d hd
    have hd : d ∈ c.diagnostics ++ missingAmong c.registry (lookedUp c.registry c.elements) := hd
    rw [hdiagnostics, List.nil_append] at hd
    obtain ⟨n, _, rfl⟩ := List.mem_map.1 hd
    rfl
  have hresult : ∀ result ∈ (c.build event).configuration.results,
      ∃ j : Job, j.run.1 = .ok result := by
    intro result hmem
    obtain ⟨done, left, _, hbuilt, _⟩ := course_build hresolved hresults event
    rw [← List.map_snd_zip hbuilt.length_eq.ge] at hmem
    obtain ⟨⟨p, result⟩, hplaced, rfl⟩ := List.mem_map.1 hmem
    obtain ⟨_, _, _, _, _, he, _⟩ := List.forall₂_zip hbuilt hplaced
    exact ⟨_, he⟩
  have hbuild : ∀ d ∈ (c.build event).configuration.results.flatMap (·.diagnostics),
      d.kind ≠ .missingPlugin := by
    intro d hd he
    obtain ⟨result, hmem, hd⟩ := List.mem_flatMap.1 hd
    obtain ⟨j, hj⟩ := hresult result hmem
    rcases (Job.run_ending hj).isUnused_or_explains d hd with hkind | hkind
    · rw [he] at hkind
      cases hkind
    · rw [he] at hkind
      cases hkind
  rw [diagnostics_build hresolved hresults, List.filter_append, List.filter_eq_self.2,
    List.filter_eq_nil_iff.2, List.append_nil]
  · intro d hd
    simpa using hbuild d hd
  · intro d hd
    simpa using hsetup d hd

/-- Setting up reports those of the elements that it looks up that belong to no plugin, and a first
build reports no others. Below an element whose plugin defers after setting up everything is left
alone, unless the element is the root: the elements that are left alone are just those in a
properties block and those that have an element above them, below the root, whose plugin defers. -/
theorem leftAlone_below_deferring {root : Node} {registry : Registry} {visitors : VisitorRegistry}
    {environment : Assoc String String} {overrides : Assoc String Value} {c : Configuration}
    {log : Log} (h : make root registry visitors environment overrides = (.ok c, log))
    (event : Option Event) :
    (lookedUp registry c.elements).Perm (c.visited.filterMap root.at?) ∧
    c.setup.1.diagnostics = missingAmong registry (lookedUp registry c.elements) ∧
    (c.build event).configuration.diagnostics.filter (fun d => d.kind == .missingPlugin) =
      c.setup.1.diagnostics ∧
    (∀ p n, p ≠ [] → c.setup.1.root.at? p = some n → deferring n = true →
      ∀ i q, c.LeftAlone event (p ++ i :: q)) ∧
    ∀ i p, (root.at? (i :: p)).isSome = true →
      (c.LeftAlone event (i :: p) ↔ root.children[i]?.any isPropertiesBlock = true ∨
        ∃ q ∈ Position.ancestors p, (c.setup.1.root.at? (i :: q)).any deferring = true) := by
  obtain ⟨hc, _⟩ := eq_of_make h
  have hroot : c.root = root := by rw [hc]
  have hregistry : c.registry = registry := by rw [hc]
  have hresolved : c.resolved = false := by rw [hc]
  have hresults : c.results = [] := by rw [hc]
  have hdiagnostics : c.diagnostics = [] := by rw [hc]
  refine ⟨?_, ?_, filter_missingPlugin_build hresolved hresults hdiagnostics event, ?_, ?_⟩
  · rw [← hroot, ← hregistry]
    exact c.lookedUp_perm_visited
  · change c.diagnostics ++ missingAmong c.registry (lookedUp c.registry c.elements) = _
    rw [hdiagnostics, List.nil_append, hregistry]
  · intro p n hp hat hdefer i q
    cases p with
    | nil => exact absurd rfl hp
    | cons j p =>
      rw [Tree.at?_cons, Option.bind_eq_some_iff] at hat
      obtain ⟨m, hm, hat⟩ := hat
      refine leftAlone_of_not_exposed hresolved event ?_
      rw [List.append_eq, exposedElement, hm, Option.any_some, exposed_append_cons hat hdefer,
        Bool.and_false]
  · intro i p hat
    rw [← hroot] at hat ⊢
    have hiff : c.LeftAlone event (i :: p) ↔ exposedElement c.setup.1.root (i :: p) = false :=
      ⟨fun hleft => hleft.not_exposed hat, leftAlone_of_not_exposed hresolved event⟩
    have hexposed := exposedElement_resolveRoot c.registry hat
    change exposedElement c.setup.1.root (i :: p) = _ at hexposed
    rw [hiff, hexposed, Bool.and_eq_false_iff, List.all_eq_false]
    apply or_congr
    · rw [Tree.at?_cons] at hat
      cases hn : c.root.children[i]? with
      | none =>
        rw [hn] at hat
        cases hat
      | some n => rw [Option.any_some, Option.any_some, Bool.not_eq_false']
    · simp only [Bool.not_eq_true', Bool.not_eq_false]
      rfl

/-- A plugin that looks after the lines below its elements, or that does not. -/
private def pageType (name : String) (defers : Bool) : PluginType :=
  ⟨⟨0, name, "plugins", []⟩, ⟨name, "plugins", name, none, name, defers, []⟩,
    ⟨none, some ⟨"create", [], fun xs => .ok (.list xs)⟩⟩⟩

private def pageRegistry : Registry :=
  ⟨[("script", pageType "Script" true), ("line", pageType "Line" false)], [], true⟩

private def lineNode : Node := ⟨"Line", [], none, .empty, []⟩

/-- A root with a line, and with a script that has a line below it. -/
private def page (name : String) : Node :=
  ⟨name, [], none, .empty, [lineNode, ⟨"Script", [], none, .empty, [lineNode]⟩]⟩

/-- The line below the script is left alone and the other one is not. -/
theorem leftAlone_below_deferring_page :
    ∃ c log, make (page "Page") pageRegistry .standard [] [] = (.ok c, log) ∧
      c.LeftAlone none [1, 0] ∧ ¬ c.LeftAlone none [0] := by
  refine ⟨_, _, rfl, ?_⟩
  obtain ⟨_, _, _, hbelow, hiff⟩ := leftAlone_below_deferring
    (show make (page "Page") pageRegistry .standard [] [] = (.ok _, _) from rfl) none
  constructor
  · exact hbelow [1] _ (by decide) rfl rfl 0 []
  · rw [hiff 0 [] rfl]
    decide +kernel

/-- The lines below a root whose plugin defers are not left alone. -/
theorem not_forall_leftAlone_below_deferring :
    ¬ ∀ (root : Node) (registry : Registry) (visitors : VisitorRegistry)
      (environment : Assoc String String) (overrides : Assoc String Value) (c : Configuration)
      (log : Log) (event : Option Event),
      make root registry visitors environment overrides = (.ok c, log) →
      ∀ p n, c.setup.1.root.at? p = some n → deferring n = true →
        ∀ i q, (p = [] → root.children[i]?.any isPropertiesBlock = false) →
          c.LeftAlone event (p ++ i :: q) := by
  intro h
  have hleft := h (page "Script") pageRegistry .standard [] [] _ _ none rfl [] _ rfl rfl 0 []
    (fun _ => rfl)
  have hnull := congrArg (Option.map fun n : Node => n.built.isNull) hleft.build
  revert hnull
  decide +kernel

end ConfigAssembly.Configuration
