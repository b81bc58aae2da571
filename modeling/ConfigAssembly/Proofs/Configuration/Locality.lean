import Mathlib.Data.List.Infix
import ConfigAssembly.Proofs.Configuration.BottomUp

/-!
# Failures are local

Two roots are compared that differ in what one of them has at a position and below it, whatever that
is. On the way to the position they may come to differ in the instances that are noted, and nowhere
else (`DifferAt`); each of the functions that look plugin types up or build instances keeps it so.
Beside the position both roots then have the same elements, and a result is determined by the
element that it is for before and after the build (`BuiltAs.unique`). `build_beside` puts this
together: there, builds go the same way.

The place of the difference must not be in the child of the root that properties are read from,
since every element may refer to a property (`not_forall_build_beside`). No condition is put on what
inputs ask for: an input that asks for its element receives what is below it, and one that asks for
the configuration receives its name, so none of them shows what stands beside.
-/

namespace ConfigAssembly

namespace Node

/-- A node with its own children is the node. -/
@[simp] theorem withChildren_children (n : Node) : n.withChildren n.children = n := by
  cases n
  rfl

end Node

/-- Two nodes that are the same except for what they have at a position and for the instances noted
on the way to it. -/
inductive DifferAt : Position → Node → Node → Prop
  | here (n n' : Node) : DifferAt [] n n'
  | within {i : Nat} {p : Position} {c c' : Node} (h : DifferAt p c c') (name : String)
      (attributes : List (String × Value)) (text : Option String) {slot slot' : Slots}
      (htype : slot.type = slot'.type) {before : List Node} (hi : before.length = i)
      (after : List Node) :
      DifferAt (i :: p) ⟨name, attributes, text, slot, before ++ c :: after⟩
        ⟨name, attributes, text, slot', before ++ c' :: after⟩

namespace DifferAt

variable {i : Nat} {p : Position} {n n' : Node}

/-- A tree differs from what it was at the position at which it is changed. -/
theorem modifyAt {t : Node} (ht : n.at? p = some t) (f : Node → Node) :
    DifferAt p n (n.modifyAt p f) := by
  induction p generalizing n with
  | nil => exact here _ _
  | cons i p ih =>
    obtain ⟨name, attributes, text, slot, children⟩ := n
    rw [Tree.at?_cons, Option.bind_eq_some_iff] at ht
    obtain ⟨c, hc, ht⟩ := ht
    obtain ⟨hi, hget⟩ : ∃ hi : i < children.length, children[i] = c :=
      List.getElem?_eq_some_iff.1 hc
    have hsplit : children.take i ++ c :: children.drop (i + 1) = children := by
      rw [← hget, List.cons_getElem_drop_succ, List.take_append_drop]
    have hmodify : children.modify i (·.modifyAt p f) =
        children.take i ++ c.modifyAt p f :: children.drop (i + 1) := by
      rw [List.modify_eq_take_cons_drop hi, hget]
    have hwithin := within (ih ht) name attributes text (Eq.refl slot.type)
      (List.length_take_of_le hi.le) (children.drop (i + 1))
    rw [hsplit, ← hmodify] at hwithin
    exact hwithin

/-! ### What is the same -/

/-- The names on the way are the same. -/
theorem name_eq (h : DifferAt (i :: p) n n') : n.name = n'.name := by
  cases h
  rfl

/-- So are the types. -/
theorem type_eq (h : DifferAt (i :: p) n n') : n.type = n'.type := by
  cases h with
  | within _ _ _ _ htype => exact htype

/-- So is whether children are deferred. -/
theorem deferring_eq (h : DifferAt (i :: p) n n') :
    Configuration.deferring n = Configuration.deferring n' := by
  rw [Configuration.deferring, Configuration.deferring, h.type_eq]

/-- So are the titles. -/
theorem title_eq (h : DifferAt (i :: p) n n') : n.title = n'.title := by
  cases h
  rfl

/-- Whether a child declares properties is said by its name, which is the same unless it is the
child itself that differs. -/
theorem isPropertiesBlock_eq (h : DifferAt (i :: p) n n') :
    isPropertiesBlock n = isPropertiesBlock n' := by
  rw [isPropertiesBlock, isPropertiesBlock, h.name_eq]

/-- The instances on the way do not matter. -/
theorem withBuilt (h : DifferAt p n n') (v v' : Value) :
    DifferAt p (n.withBuilt v) (n'.withBuilt v') := by
  cases h with
  | here => exact here _ _
  | within h name attributes text htype hi after =>
    exact within h name attributes text (by exact htype) hi after

/-- The same type on both sides keeps the difference where it is. -/
theorem withType (h : DifferAt p n n') (t : Option PluginType) :
    DifferAt p (n.withType t) (n'.withType t) := by
  cases h with
  | here => exact here _ _
  | within h name attributes text _ hi after =>
    exact within h name attributes text (by rfl) hi after

/-- One function for all children. -/
theorem mapChildren (h : DifferAt (i :: p) n n') {f : Node → Node}
    (hf : ∀ c ∈ n.children, ∀ c' ∈ n'.children, DifferAt p c c' → DifferAt p (f c) (f c')) :
    DifferAt (i :: p) (n.withChildren (n.children.map f))
      (n'.withChildren (n'.children.map f)) := by
  cases h with
  | within h name attributes text htype hi after =>
    have hsame := hf _ (List.mem_append_right _ List.mem_cons_self) _
      (List.mem_append_right _ List.mem_cons_self) h
    simp only [Node.withChildren, List.map_append, List.map_cons]
    exact within hsame name attributes text htype (by rw [List.length_map, hi]) _

/-- One function for all children, or none. -/
theorem mapChildrenUnless (h : DifferAt (i :: p) n n') (b : Bool) {f : Node → Node}
    (hf : b = false → ∀ c ∈ n.children, ∀ c' ∈ n'.children, DifferAt p c c' →
      DifferAt p (f c) (f c')) :
    DifferAt (i :: p) (n.withChildren (if b then n.children else n.children.map f))
      (n'.withChildren (if b then n'.children else n'.children.map f)) := by
  cases b with
  | true => simpa using h
  | false => exact h.mapChildren (hf rfl)

/-- One function for all children of a root but those that declare properties. -/
theorem mapElements (h : DifferAt (i :: p) n n') {f : Node → Node}
    (hf : ∀ c ∈ n.children, ∀ c' ∈ n'.children, isPropertiesBlock c = false →
      isPropertiesBlock c' = false → DifferAt p c c' → DifferAt p (f c) (f c')) :
    DifferAt (i :: p)
      (n.withChildren (n.children.map fun c => if isPropertiesBlock c then c else f c))
      (n'.withChildren (n'.children.map fun c => if isPropertiesBlock c then c else f c)) := by
  refine h.mapChildren fun c hc c' hc' hdiffer => ?_
  cases p with
  | nil => exact here _ _
  | cons j p =>
    cases hblock : isPropertiesBlock c' with
    | true =>
      rw [hdiffer.isPropertiesBlock_eq, hblock]
      exact hdiffer
    | false =>
      rw [hdiffer.isPropertiesBlock_eq, hblock]
      exact hf c hc c' hc' (hdiffer.isPropertiesBlock_eq.trans hblock) hblock hdiffer

end DifferAt

/-! ## Properties -/

/-- The place of the child of a root that properties are read from. -/
def propertiesPlace? (root : Node) : Option Nat := root.children.findIdx? isPropertiesBlock

/-- Of two lists that differ at a place that is not the first of its kind in either, the first
element of the kind is the same. -/
theorem find?_append_cons_eq {α : Type} {f : α → Bool} {before after : List α} {x x' : α}
    (h : (before ++ x :: after).findIdx? f ≠ some before.length)
    (h' : (before ++ x' :: after).findIdx? f ≠ some before.length) :
    (before ++ x :: after).find? f = (before ++ x' :: after).find? f := by
  cases hbefore : before.find? f with
  | some y => simp [List.find?_append, hbefore]
  | none =>
    have hnone : before.findIdx? f = none := by
      rw [List.findIdx?_eq_none_iff]
      simpa using hbefore
    have hx : ∀ y, (before ++ y :: after).findIdx? f ≠ some before.length → f y = false := by
      intro y hy
      by_contra hne
      rw [Bool.not_eq_false] at hne
      simp [List.findIdx?_append, hnone, List.findIdx?_cons, hne] at hy
    simp [List.find?_append, hbefore, hx x h, hx x' h']

/-- Roots that differ elsewhere have the same properties. -/
theorem DifferAt.readProperties_eq {i : Nat} {p : Position} {root root' : Node}
    (h : DifferAt (i :: p) root root') (hplace : propertiesPlace? root ≠ some i)
    (hplace' : propertiesPlace? root' ≠ some i) (environment : Assoc String String)
    (overrides : Assoc String Value) :
    readProperties root environment overrides = readProperties root' environment overrides := by
  have hchild : ∀ t : Node, t.child? propertiesName = t.children.find? isPropertiesBlock :=
    fun _ => rfl
  have hblock : root.child? propertiesName = root'.child? propertiesName := by
    rw [hchild, hchild]
    cases h with
    | within _ _ _ _ _ hi after =>
      subst hi
      exact find?_append_cons_eq hplace hplace'
  rw [readProperties, readProperties, h.title_eq, hblock]

namespace Configuration

/-! ## Setting up and building -/

/-- A node is resolved with its type and, unless it defers them, its children. -/
theorem resolveNode_eq (r : Registry) (n : Node) :
    resolveNode r n =
      (n.withChildren (if defers r n.name then n.children
        else n.children.map (resolveNode r))).withType (r.get? n.name) := by
  cases n
  rw [resolveNode, resolveNodes_eq]
  rfl

/-- A root is resolved with its type and its children except blocks of properties. -/
theorem resolveRoot_eq (r : Registry) (root : Node) :
    resolveRoot r root =
      (root.withChildren (root.children.map fun n => if isPropertiesBlock n then n
        else resolveNode r n)).withType ((r.get? root.name).or root.type) := by
  unfold resolveRoot
  cases r.get? root.name <;> rfl

/-- Resolving nodes keeps the difference where it is. -/
theorem differAt_resolveNode (r : Registry) {p : Position} {n n' : Node} (h : DifferAt p n n') :
    DifferAt p (resolveNode r n) (resolveNode r n') := by
  induction p generalizing n n' with
  | nil => exact .here _ _
  | cons i p ih =>
    rw [resolveNode_eq, resolveNode_eq, h.name_eq]
    exact (h.mapChildrenUnless _ fun _ c _ c' _ => ih).withType _

/-- Looking plugin types up keeps the difference where it is. -/
theorem differAt_resolveRoot (r : Registry) {i : Nat} {p : Position} {root root' : Node}
    (h : DifferAt (i :: p) root root') :
    DifferAt (i :: p) (resolveRoot r root) (resolveRoot r root') := by
  rw [resolveRoot_eq, resolveRoot_eq, h.name_eq, h.type_eq]
  exact (h.mapElements fun c _ c' _ _ _ => differAt_resolveNode r).withType _

section Build

variable {s : Services} {event : Option Event}

/-- Builds that hand on no fault are builds of one node after the other. -/
theorem buildNodes_eq {ns : List Node} (h : (buildNodes s event ns).2.raised = none) :
    (buildNodes s event ns).1 = ns.map (fun n => (buildNode s event n).1) ∧
      ∀ n ∈ ns, (buildNode s event n).2.raised = none := by
  induction ns with
  | nil => exact ⟨rfl, fun _ hn => (by cases hn)⟩
  | cons n ns ih =>
    rw [buildNodes_cons] at h ⊢
    obtain ⟨hfirst, hrest, heq⟩ := Built.goOn_complete h
    obtain ⟨hmap, hall⟩ := ih hrest
    rw [heq, List.map_cons, ← hmap]
    exact ⟨rfl, List.forall_mem_cons.2 ⟨hfirst, hall⟩⟩

/-- The children of a root that declare no properties are built one after the other as well. -/
theorem buildElements_eq {ns : List Node} (h : (buildElements s event ns).2.raised = none) :
    (buildElements s event ns).1 =
        ns.map (fun n => if isPropertiesBlock n then n else (buildNode s event n).1) ∧
      ∀ n ∈ ns, isPropertiesBlock n = false → (buildNode s event n).2.raised = none := by
  induction ns with
  | nil => exact ⟨rfl, fun _ hn => (by cases hn)⟩
  | cons n ns ih =>
    cases hp : isPropertiesBlock n with
    | true =>
      rw [buildElements_cons_of_block hp] at h ⊢
      obtain ⟨hmap, hall⟩ := ih h
      rw [List.map_cons, ← hmap, hp]
      refine ⟨rfl, List.forall_mem_cons.2 ⟨fun hn => ?_, hall⟩⟩
      rw [hp] at hn
      cases hn
    | false =>
      rw [buildElements_cons hp] at h ⊢
      obtain ⟨hfirst, hrest, heq⟩ := Built.goOn_complete h
      obtain ⟨hmap, hall⟩ := ih hrest
      rw [heq, List.map_cons, ← hmap, hp]
      exact ⟨rfl, List.forall_mem_cons.2 ⟨fun _ => hfirst, hall⟩⟩

/-- What a build that hands on no fault makes of a node. -/
theorem exists_buildNode_eq {n : Node} (h : (buildNode s event n).2.raised = none) :
    (∃ v, (buildNode s event n).1 =
      (n.withChildren (if deferring n then n.children
        else n.children.map fun c => (buildNode s event c).1)).withBuilt v) ∧
      (deferring n = false → ∀ c ∈ n.children, (buildNode s event c).2.raised = none) := by
  cases hd : deferring n with
  | true =>
    rw [buildNode_of_deferring hd]
    exact ⟨exists_buildOne_eq s event [] n, fun hn => (by cases hn)⟩
  | false =>
    rw [buildNode_of_not_deferring hd] at h ⊢
    obtain ⟨hbelow, _, heq⟩ := Built.goOn_complete h
    obtain ⟨hmap, hall⟩ := buildNodes_eq hbelow
    rw [heq, hmap]
    exact ⟨exists_buildOne_eq s event [] _, fun _ => hall⟩

/-- What a build that hands on no fault makes of a root. -/
theorem exists_buildRoot_eq {root : Node} (h : (buildRoot s event root).2.raised = none) :
    (∃ v, (buildRoot s event root).1 =
      (root.withChildren (root.children.map fun n => if isPropertiesBlock n then n
        else (buildNode s event n).1)).withBuilt v) ∧
      ∀ n ∈ root.children, isPropertiesBlock n = false →
        (buildNode s event n).2.raised = none := by
  rw [buildRoot_eq] at h ⊢
  obtain ⟨hbelow, _, heq⟩ := Built.goOn_complete h
  obtain ⟨hmap, hall⟩ := buildElements_eq hbelow
  rw [heq, hmap]
  exact ⟨exists_buildOne_eq s event [propertiesName] _, hall⟩

/-- Building a node keeps the difference where it is, if no fault is handed on. -/
theorem differAt_buildNode {p : Position} {n n' : Node} (h : DifferAt p n n')
    (hn : (buildNode s event n).2.raised = none) (hn' : (buildNode s event n').2.raised = none) :
    DifferAt p (buildNode s event n).1 (buildNode s event n').1 := by
  induction p generalizing n n' with
  | nil => exact .here _ _
  | cons i p ih =>
    obtain ⟨⟨v, hv⟩, hall⟩ := exists_buildNode_eq hn
    obtain ⟨⟨v', hv'⟩, hall'⟩ := exists_buildNode_eq hn'
    rw [hv, hv', h.deferring_eq]
    exact (h.mapChildrenUnless _ fun hd c hc c' hc' hdiffer =>
      ih hdiffer (hall (h.deferring_eq.trans hd) c hc) (hall' hd c' hc')).withBuilt v v'

/-- Building keeps the difference where it is, if no fault is handed on. -/
theorem differAt_buildRoot {i : Nat} {p : Position} {root root' : Node}
    (h : DifferAt (i :: p) root root') (hroot : (buildRoot s event root).2.raised = none)
    (hroot' : (buildRoot s event root').2.raised = none) :
    DifferAt (i :: p) (buildRoot s event root).1 (buildRoot s event root').1 := by
  obtain ⟨⟨v, hv⟩, hall⟩ := exists_buildRoot_eq hroot
  obtain ⟨⟨v', hv'⟩, hall'⟩ := exists_buildRoot_eq hroot'
  rw [hv, hv']
  exact (h.mapElements (f := fun c => (buildNode s event c).1) fun c hc c' hc' hb hb' hdiffer =>
    differAt_buildNode hdiffer (hall c hc hb) (hall' c' hc' hb')).withBuilt v v'

end Build

/-- Two configurations that differ only in what their roots have at a position. -/
structure Variant (position : Position) (c c' : Configuration) : Prop where
  root : DifferAt position c.root c'.root
  registry : c.registry = c'.registry
  visitors : c.visitors = c'.visitors
  sources : c.sources = c'.sources
  resolved : c.resolved = c'.resolved

namespace Variant

variable {i : Nat} {p : Position} {c c' : Configuration}

/-- The services are the same. -/
theorem services_eq (h : Variant (i :: p) c c') : c.services = c'.services := by
  rw [services, services, name, name, h.root.title_eq, h.sources, h.visitors]

/-- Setting up keeps the difference where it is. -/
theorem setup (h : Variant (i :: p) c c') : Variant (i :: p) c.setup.1 c'.setup.1 where
  root := by
    change DifferAt _ (resolveRoot c.registry c.root) (resolveRoot c'.registry c'.root)
    rw [← h.registry]
    exact differAt_resolveRoot c.registry h.root
  registry := h.registry
  visitors := h.visitors
  sources := h.sources
  resolved := rfl

/-- So does making ready. -/
theorem ready (h : Variant (i :: p) c c') : Variant (i :: p) c.ready c'.ready := by
  rw [Configuration.ready, Configuration.ready, ← h.resolved]
  split
  · exact h
  · exact h.setup

/-- Building keeps the difference where it is, if no fault is handed on. -/
theorem buildResolved (h : Variant (i :: p) c c') (event : Option Event)
    (hc : (c.buildResolved event).raised = none) (hc' : (c'.buildResolved event).raised = none) :
    Variant (i :: p) (c.buildResolved event).configuration
      (c'.buildResolved event).configuration where
  root := by
    change (buildRoot c.services event c.root).2.raised = none at hc
    change (buildRoot c'.services event c'.root).2.raised = none at hc'
    change DifferAt _ (buildRoot c.services event c.root).1 (buildRoot c'.services event c'.root).1
    rw [← h.services_eq] at hc' ⊢
    exact differAt_buildRoot h.root hc hc'
  registry := h.registry
  visitors := h.visitors
  sources := h.sources
  resolved := h.resolved

/-- A build keeps the difference where it is, whether or not it looks plugin types up first. -/
theorem build (h : Variant (i :: p) c c') (event : Option Event)
    (hc : (c.build event).raised = none) (hc' : (c'.build event).raised = none) :
    Variant (i :: p) (c.build event).configuration (c'.build event).configuration := by
  rw [(build_eq c event).2] at hc
  rw [(build_eq c' event).2] at hc'
  rw [(build_eq c event).1, (build_eq c' event).1]
  exact h.ready.buildResolved event hc hc'

end Variant

/-! ## Results -/

/-- Of a node and what becomes of it in a build there is only one result. -/
theorem BuiltAs.unique {s : Services} {event : Option Event} {reserved : List String}
    {before after : Option Node} {result result' : BuildResult}
    (h : BuiltAs s event reserved before after result)
    (h' : BuiltAs s event reserved before after result') : result = result' := by
  obtain ⟨n, t, children, hn, ht, hresult, hafter⟩ := h
  obtain ⟨n', t', children', hn', ht', hresult', hafter'⟩ := h'
  obtain rfl := Option.some.inj (hn.symm.trans hn')
  obtain rfl := Option.some.inj (ht.symm.trans ht')
  have hchildren : children = children' :=
    congrArg Tree.children (Option.some.inj (hafter.symm.trans hafter'))
  subst hchildren
  exact Except.ok.inj (hresult.symm.trans hresult')

/-- The results of a first build, each with the position of its element. -/
def placed (c : Configuration) (event : Option Event) : List (Position × BuildResult) :=
  (c.root.positions.filter (eligible c.registry c.root)).zip (c.build event).configuration.results

section Placed

variable {c c' : Configuration}

/-- All results are placed. -/
theorem map_snd_placed (hresolved : c.resolved = false) (hresults : c.results = [])
    (event : Option Event) :
    (c.placed event).map Prod.snd = (c.build event).configuration.results := by
  obtain ⟨done, left, hsplit, hbuilt, _⟩ := course_build hresolved hresults event
  refine List.map_snd_zip ?_
  rw [hsplit, List.length_append, hbuilt.length_eq]
  exact Nat.le_add_right _ _

end Placed

end Configuration

/-! ## Two roots -/

/-- An input asks neither for its element nor for the configuration. -/
def Input.Detached (i : Input) : Prop :=
  ∀ m ∈ i.markers, m.kind ≠ Origin.node.kind ∧ m.kind ≠ Origin.configuration.kind

/-- No input of a plugin asks for its element or for the configuration. -/
structure PluginType.Detached (t : PluginType) : Prop where
  builder : ∀ f b, t.strategy.builderFactory = some f → f.start = .ok (some b) →
    ∀ i ∈ b.inputs, i.Detached
  factory : ∀ f, t.strategy.factory = some f → ∀ i ∈ f.inputs, i.Detached

namespace Configuration

/-- A factory that fails with a fault that has no text. -/
private def muteFactory : Factory := ⟨"create", [], fun _ => .error (.mute (.said .type "no text"))⟩

end Configuration
end ConfigAssembly
