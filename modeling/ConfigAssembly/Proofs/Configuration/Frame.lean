import ConfigAssembly.Proofs.Configuration.Deferral
import ConfigAssembly.Proofs.Configuration.Rebuild

/-!
# What work on a configuration leaves as it was

Setting up and building are maps over the tree that fill slots (`Fills`), so the tree as it is
written stays (`Fills.written`). Plugin types that were looked up stay as they are, as looking them
up again changes nothing (`resolveRoot_resolveRoot`) and building changes no types
(`resolveRoot_buildRoot`); so what is exposed stays exposed (`exposedElement_buildRoot`), and what
is not exposed is never touched. `Frame` says this of a configuration that was worked on; each call
keeps it (`Frame.call`), and so do all of them together (`Frame.callAll`).
-/

namespace ConfigAssembly

/-- The tree of a node as it is written, without what is noted at its elements. -/
def Node.written (n : Node) : Tree Value Unit := n.map id fun _ => ()

/-- What is written of a node, part by part. -/
theorem Node.written_eq (n : Node) :
    n.written = ⟨n.name, n.attributes, n.text, (), n.children.map Node.written⟩ := by
  rw [written, Tree.map_eq]
  simp only [id_eq, List.map_id']
  rfl

/-- What is written at a position. -/
theorem Node.map_written_at? (n : Node) (p : Position) :
    (n.at? p).map Node.written = n.written.at? p :=
  (Tree.at?_map id (fun _ => ()) p n).symm

namespace Configuration

/-! ### Filling slots -/

/-- A function on nodes fills slots, from a node down to the nodes that it stops at; elements on the
way may be passed over. -/
def Fills (stop : Node → Bool) (f : Node → Node) : Prop :=
  ∀ n, ∃ slot children, f n = ⟨n.name, n.attributes, n.text, slot, children⟩ ∧
    List.Forall₂ (fun c c' => c' = c ∨ stop n = false ∧ c' = f c) n.children children

/-- Looking plugin types up fills slots. -/
theorem fills_resolveNode (r : Registry) : Fills (fun n => defers r n.name) (resolveNode r) := by
  intro n
  refine ⟨(resolveNode r n).slot, (resolveNode r n).children, ?_, forall₂_resolveNode r n⟩
  rw [resolveNode_eq]
  rfl

/-- Building fills slots, also if it hands on a fault. -/
theorem fills_buildNode (s : Services) (event : Option Event) :
    Fills deferring fun n => (buildNode s event n).1 := by
  intro n
  obtain ⟨children, v, hv, hbelow⟩ := exists_buildNode_fills s event n
  exact ⟨_, children, hv, hbelow⟩

section Fills

variable {stop : Node → Bool} {f : Node → Node}

/-- Elements that are passed over or changed by a function keep what the function leaves of them. -/
theorem map_eq_of_filled {α : Type} {P : Node → Prop} {g : Node → α} {ns ns' : List Node}
    (h : List.Forall₂ (fun n n' => n' = n ∨ P n ∧ n' = f n) ns ns')
    (hf : ∀ n ∈ ns, g (f n) = g n) : ns'.map g = ns.map g := by
  induction h with
  | nil => rfl
  | cons hn _ ih =>
    have hrest := ih fun m hm => hf m (List.mem_cons_of_mem _ hm)
    rcases hn with rfl | ⟨_, rfl⟩
    · rw [List.map_cons, List.map_cons, hrest]
    · rw [List.map_cons, List.map_cons, hrest, hf _ List.mem_cons_self]

/-- An element of the second of two lists is related to one of the first. -/
theorem exists_of_forall₂_of_mem {α β : Type} {R : α → β → Prop} {xs : List α} {ys : List β}
    (h : List.Forall₂ R xs ys) {y : β} (hy : y ∈ ys) : ∃ x ∈ xs, R x y := by
  induction h with
  | nil => cases hy
  | cons hxy _ ih =>
    rcases List.mem_cons.1 hy with rfl | hy
    · exact ⟨_, List.mem_cons_self, hxy⟩
    · obtain ⟨x, hx, hxy⟩ := ih hy
      exact ⟨x, List.mem_cons_of_mem _ hx, hxy⟩

/-- Where slots are filled the tree as it is written stays. -/
theorem Fills.written (h : Fills stop f) (n : Node) : (f n).written = n.written := by
  induction n using Tree.induct with
  | h n ih =>
    obtain ⟨slot, children, hslot, hbelow⟩ := h n
    rw [hslot, Node.written_eq, Node.written_eq n]
    dsimp only
    rw [map_eq_of_filled hbelow ih]

/-- At the root properties blocks are passed over. -/
theorem Fills.written_root (h : Fills stop f) {root : Node} {children : List Node}
    (hbelow : List.Forall₂ (fun n n' => n' = n ∨ isPropertiesBlock n = false ∧ n' = f n)
      root.children children) (slot : Slots) :
    Node.written ⟨root.name, root.attributes, root.text, slot, children⟩ = root.written := by
  rw [Node.written_eq, Node.written_eq root]
  dsimp only
  rw [map_eq_of_filled hbelow fun n _ => h.written n]

end Fills

/-- The tree as it is written stays when plugin types are looked up. -/
theorem written_resolveRoot (r : Registry) (root : Node) :
    (resolveRoot r root).written = root.written := by
  have hroot : resolveRoot r root = ⟨root.name, root.attributes, root.text,
      (resolveRoot r root).slot, (resolveRoot r root).children⟩ := by
    rw [resolveRoot_eq]
    rfl
  rw [hroot]
  exact (fills_resolveNode r).written_root (forall₂_resolveRoot r root) _

/-- The tree as it is written stays in a build. -/
theorem written_buildRoot (s : Services) (event : Option Event) (root : Node) :
    (buildRoot s event root).1.written = root.written := by
  obtain ⟨children, v, hv, hbelow⟩ := exists_buildRoot_fills s event root
  rw [hv]
  exact (fills_buildNode s event).written_root hbelow _

/-! ### Plugin types stay -/

section Types

variable (r : Registry) {s : Services} {event : Option Event}

/-- A list stays as it is if each item does. -/
theorem map_eq_self_iff {α : Type} {f : α → α} {xs : List α} :
    xs.map f = xs ↔ ∀ x ∈ xs, f x = x := by
  simpa using List.map_inj_left (f := f) (g := id) (l := xs)

/-- Looking plugin types up changes nothing at a node just if the node has the type of its name, and
nothing below it unless that type defers. -/
theorem resolveNode_eq_self_iff (n : Node) : resolveNode r n = n ↔
    r.get? n.name = n.type ∧ (defers r n.name = false → ∀ c ∈ n.children, resolveNode r c = c) := by
  obtain ⟨name, attributes, text, ⟨type, built⟩, children⟩ := n
  rw [resolveNode_eq]
  cases hd : defers r name <;>
    simp [Node.withType, Node.withChildren, Node.type, map_eq_self_iff]

/-- A root is resolved already if it has its type and its elements are resolved. -/
theorem resolveRoot_eq_self_iff (root : Node) : resolveRoot r root = root ↔
    (r.get? root.name).or root.type = root.type ∧
      ∀ c ∈ root.children, isPropertiesBlock c = false → resolveNode r c = c := by
  obtain ⟨name, attributes, text, ⟨type, built⟩, children⟩ := root
  rw [resolveRoot_eq]
  simp [Node.withType, Node.withChildren, Node.type, map_eq_self_iff]

/-- A node that is resolved stays as it is. -/
theorem resolveNode_resolveNode (n : Node) :
    resolveNode r (resolveNode r n) = resolveNode r n := by
  induction n using Tree.induct with
  | h n ih =>
    rw [resolveNode_eq_self_iff]
    have hname : (resolveNode r n).name = n.name := by rw [resolveNode_eq]; rfl
    rw [hname, type_resolveNode, children_resolveNode]
    refine ⟨rfl, fun hd c hc => ?_⟩
    rw [hd] at hc
    obtain ⟨c, hmem, rfl⟩ := List.mem_map.1 hc
    exact ih c hmem

/-- So does a root. -/
theorem resolveRoot_resolveRoot (root : Node) :
    resolveRoot r (resolveRoot r root) = resolveRoot r root := by
  rw [resolveRoot_eq_self_iff, children_resolveRoot, resolveRoot_eq]
  constructor
  · change (r.get? root.name).or ((r.get? root.name).or root.type) =
      (r.get? root.name).or root.type
    cases r.get? root.name <;> rfl
  · intro c hc hblock
    obtain ⟨n, _, rfl⟩ := List.mem_map.1 hc
    split at hblock
    · next hn =>
      rw [hn] at hblock
      cases hblock
    · next hn =>
      rw [if_neg hn]
      exact resolveNode_resolveNode r n

variable {r}

/-- A build leaves elements that have the plugin types of their names such. -/
theorem resolveNode_buildNode {n : Node} (h : resolveNode r n = n) :
    resolveNode r (buildNode s event n).1 = (buildNode s event n).1 := by
  induction n using Tree.induct with
  | h n ih =>
    obtain ⟨htype, hresolved⟩ := (resolveNode_eq_self_iff r n).1 h
    obtain ⟨children, v, hv, hbelow⟩ := exists_buildNode_fills s event n
    rw [hv, resolveNode_eq_self_iff]
    refine ⟨htype, fun hd c hc => ?_⟩
    obtain ⟨m, hm, rfl | ⟨_, rfl⟩⟩ := exists_of_forall₂_of_mem hbelow hc
    · exact hresolved hd c hm
    · exact ih m hm (hresolved hd m hm)

/-- A build leaves roots whose elements have the plugin types of their names such. -/
theorem resolveRoot_buildRoot {root : Node} (h : resolveRoot r root = root) :
    resolveRoot r (buildRoot s event root).1 = (buildRoot s event root).1 := by
  obtain ⟨htype, hresolved⟩ := (resolveRoot_eq_self_iff r root).1 h
  obtain ⟨children, v, hv, hbelow⟩ := exists_buildRoot_fills s event root
  rw [hv, resolveRoot_eq_self_iff]
  refine ⟨htype, fun c hc hblock => ?_⟩
  obtain ⟨n, hn, rfl | ⟨hblock', rfl⟩⟩ := exists_of_forall₂_of_mem hbelow hc
  · exact hresolved c hn hblock
  · exact resolveNode_buildNode (hresolved n hn hblock')

/-- A build leaves what is exposed exposed. -/
theorem exposed_buildNode (n : Node) (p : Position) :
    exposed (buildNode s event n).1 p = exposed n p := by
  induction p generalizing n with
  | nil => rfl
  | cons i p ih =>
    obtain ⟨children, v, hv, hbelow⟩ := exists_buildNode_fills s event n
    have hchildren : (buildNode s event n).1.children = children := by
      rw [hv]
      rfl
    have hrel := rel_getElem? hbelow i
    rw [exposed, exposed, deferring_buildNode, hchildren]
    generalize n.children[i]? = c, children[i]? = c' at hrel ⊢
    cases hrel with
    | none => rfl
    | some h =>
      rcases h with rfl | ⟨_, rfl⟩
      · rfl
      · rw [Option.any_some, Option.any_some, ih]

/-- A build leaves what is exposed below a root exposed. -/
theorem exposedElement_buildRoot (root : Node) (p : Position) :
    exposedElement (buildRoot s event root).1 p = exposedElement root p := by
  cases p with
  | nil => rfl
  | cons i p =>
    obtain ⟨children, v, hv, hbelow⟩ := exists_buildRoot_fills s event root
    have hchildren : (buildRoot s event root).1.children = children := by
      rw [hv]
      rfl
    have hrel := rel_getElem? hbelow i
    rw [exposedElement, exposedElement, hchildren]
    generalize root.children[i]? = c, children[i]? = c' at hrel ⊢
    cases hrel with
    | none => rfl
    | some h =>
      rcases h with rfl | ⟨_, rfl⟩
      · rfl
      · rw [Option.any_some, Option.any_some, isPropertiesBlock_buildNode, exposed_buildNode]

end Types

/-! ### Calls -/

/-- A call that works on the tree of a configuration. -/
inductive Call where
  | setup
  | build (event : Option Event)

/-- The configuration after a call. -/
def call (c : Configuration) : Call → Configuration
  | .setup => c.setup.1
  | .build event => (c.build event).configuration

/-- The configuration after several calls. -/
def callAll (c : Configuration) (calls : List Call) : Configuration := calls.foldl call c

/-- A configuration that was worked on has the tree and the properties that it was made with, but
for what is noted at exposed elements. -/
structure Frame (c : Configuration) (root : Node) (sources : Sources) : Prop where
  resolved : c.resolved = true
  settled : resolveRoot c.registry c.root = c.root
  written : c.root.written = root.written
  untouched : ∀ i p, exposedElement c.root (i :: p) = false →
    c.root.at? (i :: p) = root.at? (i :: p)
  sources : c.sources = sources

/-- Setting a new configuration up. -/
theorem frame_setup (c : Configuration) : c.setup.1.Frame c.root c.sources where
  resolved := rfl
  settled := resolveRoot_resolveRoot c.registry c.root
  written := written_resolveRoot c.registry c.root
  untouched _ _ h := at?_resolveRoot_of_not_exposed c.registry h
  sources := rfl

section Frame

variable {c : Configuration} {root : Node} {sources : Sources}

/-- Setting up again changes nothing about the tree. -/
theorem Frame.setup (h : c.Frame root sources) : c.setup.1.Frame root sources := by
  have hroot : c.setup.1.root = c.root := h.settled
  have hagain := frame_setup c
  constructor
  · rfl
  · exact hagain.settled
  · rw [hroot]
    exact h.written
  · rw [hroot]
    exact h.untouched
  · exact h.sources

/-- A build keeps the frame. -/
theorem Frame.buildResolved (h : c.Frame root sources) (event : Option Event) :
    (c.buildResolved event).configuration.Frame root sources where
  resolved := h.resolved
  settled := resolveRoot_buildRoot h.settled
  written := (written_buildRoot c.services event c.root).trans h.written
  untouched i p hp := by
    have hbefore : exposedElement c.root (i :: p) = false :=
      (exposedElement_buildRoot c.root (i :: p)).symm.trans hp
    exact (at?_buildRoot_of_not_exposed c.services event hbefore).trans (h.untouched i p hbefore)
  sources := h.sources

/-- Each call keeps the frame. -/
theorem Frame.call (h : c.Frame root sources) (call : Call) : (c.call call).Frame root sources := by
  cases call with
  | setup => exact h.setup
  | build event =>
    have hready : c.ready = c := by rw [ready, if_pos h.resolved]
    rw [Configuration.call, (build_eq c event).1, hready]
    exact h.buildResolved event

/-- So do calls of all kinds, one after the other. -/
theorem Frame.callAll (h : c.Frame root sources) (calls : List Call) :
    (c.callAll calls).Frame root sources := by
  induction calls generalizing c with
  | nil => exact h
  | cons call calls ih => exact ih (h.call call)

/-- The first call puts the frame up. -/
theorem frame_call (hresolved : c.resolved = false) (call : Call) :
    (c.call call).Frame c.root c.sources := by
  cases call with
  | setup => exact frame_setup c
  | build event =>
    rw [Configuration.call, (build_eq c event).1, ready_of_not_resolved hresolved]
    exact (frame_setup c).buildResolved event

/-- What is in a properties block is left as it was. -/
theorem Frame.at?_block (h : c.Frame root sources) {i : Nat} {p : Position}
    (hblock : root.children[i]?.any isPropertiesBlock = true) :
    c.root.at? (i :: p) = root.at? (i :: p) := by
  have hchildren : c.root.children.map Node.written = root.children.map Node.written := by
    have hwritten := congrArg Tree.children h.written
    rw [Node.written_eq, Node.written_eq root] at hwritten
    exact hwritten
  have hname : ∀ n : Node, isPropertiesBlock n.written = isPropertiesBlock n := by
    intro n
    rw [Node.written_eq]
    rfl
  have hsame : c.root.children[i]?.any isPropertiesBlock = true := by
    have hget := congrArg (fun ns => ns[i]?.any isPropertiesBlock) hchildren
    simpa [List.getElem?_map, Option.any_map, Function.comp_def, hname, hblock] using hget
  apply h.untouched
  rw [Option.any_eq_true] at hsame
  obtain ⟨n, hn, hblock⟩ := hsame
  rw [exposedElement, hn, Option.any_some, hblock]
  rfl

/-- What is below an element whose plugin defers is left as it was, unless the element is the
root. -/
theorem Frame.at?_below (h : c.Frame root sources) {p : Position} {n : Node} (hp : p ≠ [])
    (hat : c.root.at? p = some n) (hn : deferring n = true) (i : Nat) (q : Position) :
    c.root.at? (p ++ i :: q) = root.at? (p ++ i :: q) := by
  cases p with
  | nil => exact absurd rfl hp
  | cons j p =>
    rw [Tree.at?_cons, Option.bind_eq_some_iff] at hat
    obtain ⟨m, hm, hat⟩ := hat
    apply h.untouched
    rw [List.append_eq, exposedElement, hm, Option.any_some, exposed_append_cons hat hn,
      Bool.and_false]

end Frame

/-- Whatever calls are made on a configuration, the tree stays as it is written: every element keeps
its name, attributes, text and children, and its place below its parent. Properties blocks and what
is below an element whose plugin defers, the root apart, also keep what is noted at them, and the
properties are those that the configuration was made with. -/
theorem callAll_keeps {root : Node} {registry : Registry} {visitors : VisitorRegistry}
    {environment : Assoc String String} {overrides : Assoc String Value} {c : Configuration}
    {log : Log} (h : make root registry visitors environment overrides = (.ok c, log))
    (calls : List Call) :
    (∀ p, ((c.callAll calls).root.at? p).map Node.written = (root.at? p).map Node.written ∧
      ((c.callAll calls).root.parent? p).map Node.written =
        (root.parent? p).map Node.written) ∧
    (∀ i p, root.children[i]?.any isPropertiesBlock = true →
      (c.callAll calls).root.at? (i :: p) = root.at? (i :: p)) ∧
    (∀ p n, p ≠ [] → (c.callAll calls).root.at? p = some n → deferring n = true →
      ∀ i q, (c.callAll calls).root.at? (p ++ i :: q) = root.at? (p ++ i :: q)) ∧
    (c.callAll calls).sources = c.sources ∧
    readProperties root environment overrides = (.ok c.sources, log) := by
  obtain ⟨hc, hsources⟩ := eq_of_make h
  have hroot : c.root = root := by rw [hc]
  have hresolved : c.resolved = false := by rw [hc]
  rcases calls with _ | ⟨call, calls⟩
  · rw [show c.callAll [] = c from rfl, hroot]
    exact ⟨fun _ => ⟨rfl, rfl⟩, fun _ _ _ => rfl, fun _ _ _ _ _ _ _ => rfl, rfl, hsources⟩
  · have hframe : (c.callAll (call :: calls)).Frame root c.sources :=
      hroot ▸ (frame_call hresolved call).callAll calls
    have hat : ∀ p, ((c.callAll (call :: calls)).root.at? p).map Node.written =
        (root.at? p).map Node.written := by
      intro p
      rw [Node.map_written_at?, Node.map_written_at?, hframe.written]
    refine ⟨fun p => ⟨hat p, ?_⟩, fun _ _ => hframe.at?_block, fun _ _ => hframe.at?_below,
      hframe.sources, hsources⟩
    unfold Tree.parent?
    split
    · rfl
    · exact hat p.dropLast

/-- A plugin that looks after the sheets below its elements, or that does not. -/
private def deskType (name : String) (defers : Bool) : PluginType :=
  ⟨⟨0, name, "plugins", []⟩, ⟨name, "plugins", name, none, name, defers, []⟩,
    ⟨none, some ⟨"create", [], fun xs => .ok (.list xs)⟩⟩⟩

private def deskRegistry : Registry :=
  ⟨[("folder", deskType "Folder" true), ("sheet", deskType "Sheet" false)], [], true⟩

private def sheetNode : Node := ⟨"Sheet", [], none, .empty, []⟩

/-- A root with a sheet in a properties block, one in a folder, and one of its own. -/
private def deskRoot : Node :=
  ⟨"Desk", [], none, .empty, [⟨"Properties", [], none, .empty, [sheetNode]⟩,
    ⟨"Folder", [], none, .empty, [sheetNode]⟩, sheetNode]⟩

/-- After two builds and setting up in between there are instances of the folder and the sheet of
the root, and the other two sheets are as they were. -/
theorem callAll_keeps_desk :
    ∃ c log, make deskRoot deskRegistry .standard [] [] = (.ok c, log) ∧
      let root := (c.callAll [.build none, .setup, .build none]).root
      root.written = deskRoot.written ∧
        root.at? [0, 0] = some sheetNode ∧ root.at? [1, 0] = some sheetNode ∧
        ([[1], [2]].map fun p => (root.at? p).map fun (n : Node) => n.built.isNull) =
          [some false, some false] := by
  refine ⟨_, _, rfl, ?_⟩
  obtain ⟨hwritten, hblock, hbelow, _⟩ := callAll_keeps
    (show make deskRoot deskRegistry .standard [] [] = (.ok _, _) from rfl)
    [.build none, .setup, .build none]
  refine ⟨Option.some.inj (hwritten []).1, hblock 0 [0] rfl, ?_, by decide +kernel⟩
  exact hbelow [1] _ (by decide) rfl rfl 0 []

end Configuration
end ConfigAssembly
