import ConfigAssembly.Proofs.Configuration.Deferral
import ConfigAssembly.Proofs.Configuration.Properties

/-!
# The children of a root

What becomes of each child of a root. A child that is no properties block is looked up and gets the
plugin type of its name, or is reported (`Resolved`, `resolved_of_element`). The first properties
block is read: of the names that it declares each has the value of its last declaration (`Loads`,
`loads_of_first`). Any other properties block goes unheard (`Unheard`, `unheard_of_later`): as the
block that is read is looked for by the first name that fits and blocks are passed over by every
name that fits, nothing of it is read and nothing about it is reported, just as if it were not
there.

`forall_child_accounted` puts the three together, and `not_forall_resolved_or_loads` shows that the
third case is there.
-/

namespace ConfigAssembly

/-! ### A root without one of its children -/

/-- The node without the child at a place. -/
def Node.withoutChild (n : Node) (i : Nat) : Node := n.withChildren (n.children.eraseIdx i)

/-- Without an element behind the first one of its kind, the first one is the same. -/
theorem find?_eraseIdx_of_findIdx? {α : Type} {f : α → Bool} {xs : List α} {i j : Nat}
    (h : xs.findIdx? f = some j) (hlt : j < i) : (xs.eraseIdx i).find? f = xs.find? f := by
  obtain ⟨hj, hfound, _⟩ := List.findIdx?_eq_some_iff_getElem.1 h
  have hmem : xs[j] ∈ xs.take i := by
    rw [List.mem_take_iff_getElem]
    exact ⟨j, by omega, rfl⟩
  obtain ⟨x, hx⟩ : ∃ x, (xs.take i).find? f = some x :=
    Option.isSome_iff_exists.1 (List.find?_isSome.2 ⟨_, hmem, hfound⟩)
  calc (xs.eraseIdx i).find? f
    _ = (xs.take i ++ xs.drop (i + 1)).find? f := by rw [List.eraseIdx_eq_take_drop_succ]
    _ = some x := by rw [List.find?_append, hx, Option.some_or]
    _ = (xs.take i ++ xs.drop i).find? f := by rw [List.find?_append, hx, Option.some_or]
    _ = xs.find? f := by rw [List.take_append_drop]

/-- An element that is filtered out may be left out before. -/
theorem filter_eraseIdx_of_neg {α : Type} {f : α → Bool} {xs : List α} {i : Nat} {x : α}
    (hx : xs[i]? = some x) (hf : f x = false) : (xs.eraseIdx i).filter f = xs.filter f := by
  obtain ⟨hi, rfl⟩ := List.getElem?_eq_some_iff.1 hx
  have hsplit : xs = xs.take i ++ xs[i] :: xs.drop (i + 1) := by
    rw [List.getElem_cons_drop, List.take_append_drop]
  rw [List.eraseIdx_eq_take_drop_succ]
  conv_rhs => rw [hsplit]
  rw [List.filter_append, List.filter_append, List.filter_cons_of_neg (by simp [hf])]

/-- Of two elements of a kind only the first is the first one of the kind. -/
theorem lt_of_findIdx?_ne {α : Type} {f : α → Bool} {xs : List α} {i : Nat} {x : α}
    (hx : xs[i]? = some x) (hf : f x = true) (h : xs.findIdx? f ≠ some i) :
    ∃ j, xs.findIdx? f = some j ∧ j < i := by
  obtain ⟨hi, rfl⟩ := List.getElem?_eq_some_iff.1 hx
  have hsome : (xs.findIdx? f).isSome = true := by
    rw [List.findIdx?_isSome, List.any_eq_true]
    exact ⟨_, List.getElem_mem hi, hf⟩
  obtain ⟨j, hj⟩ := Option.isSome_iff_exists.1 hsome
  obtain ⟨_, _, hbefore⟩ := List.findIdx?_eq_some_iff_getElem.1 hj
  have hle : j ≤ i := by
    by_contra hlt
    exact hbefore i (by omega) hf
  have hne : j ≠ i := by
    rintro rfl
    exact h hj
  exact ⟨j, hj, by omega⟩

namespace Configuration

/-- The configuration without a child of its root. -/
def withoutChild (c : Configuration) (i : Nat) : Configuration :=
  { c with root := c.root.withoutChild i }

/-! ### What becomes of a child -/

/-- The child of the root at a place is looked up by setting up: it has the plugin type of its name
then, and it is reported if there is none. -/
structure Resolved (c : Configuration) (i : Nat) (n : Node) : Prop where
  visited : [i] ∈ c.visited
  type : (c.setup.1.root.at? [i]).map Node.type = some (c.registry.get? n.name)
  reported : c.registry.get? n.name = none →
    missing n ∈ c.setup.1.diagnostics ∧ (missing n).record ∈ c.setup.2.log

/-- Every name that an element below a block declares is found, unless a later one declares it again
or an override replaces it, and it has the value of this element, with the tokens in it replaced by
what was declared before. -/
def Loads (c : Configuration) (environment : Assoc String String) (overrides : Assoc String Value)
    (block : Node) : Prop :=
  ∀ before t after name, block.children = before ++ t :: after → propertyName? t = some name →
    name ∉ propertyNames after → name ∉ overrides.keys →
    ∃ s v, before.foldlM readProperty (.start environment) = .ok s ∧
      declaredValue s (propertyValue t) = .ok v ∧ c.sources.properties.get? (.str name) = some v

/-- The child of the root at a place goes unheard: it is left alone, and without it the
configuration is made with the same properties and the same reports, and set up with the same
diagnostics and the same reports. -/
structure Unheard (c : Configuration) (environment : Assoc String String)
    (overrides : Assoc String Value) (log : Log) (i : Nat) : Prop where
  alone : ∀ event, c.LeftAlone event [i]
  made : make (c.root.withoutChild i) c.registry c.visitors environment overrides =
    (.ok (c.withoutChild i), log)
  diagnostics : (c.withoutChild i).setup.1.diagnostics = c.setup.1.diagnostics
  reports : (c.withoutChild i).setup.2 = c.setup.2

section Child

variable {root : Node} {registry : Registry} {visitors : VisitorRegistry}
variable {environment : Assoc String String} {overrides : Assoc String Value}
variable {c : Configuration} {log : Log} {i : Nat} {n : Node}

/-- A child that is no properties block is looked up. -/
theorem resolved_of_element (hn : c.root.children[i]? = some n)
    (hblock : isPropertiesBlock n = false) : c.Resolved i n := by
  have hat : c.root.at? [i] = some n := by
    rw [Tree.at?_cons, hn]
    rfl
  have hvisited : [i] ∈ c.visited := by
    refine List.mem_filter.2 ⟨?_, ?_⟩
    · rw [Tree.mem_positionsAll, ← Tree.at?_eq_atAll?, hat]
      rfl
    · change exposedElement (resolveRoot c.registry c.root) [i] = true
      rw [← reachesElement_eq_exposed, reachesElement, hn, Option.any_some, hblock]
      rfl
  refine ⟨hvisited, ?_, fun hnone => ?_⟩
  · change ((resolveRoot c.registry c.root).at? [i]).map Node.type = _
    rw [Tree.at?_cons, children_resolveRoot, List.getElem?_map, hn, Option.map_some, hblock,
      if_neg (by decide), Option.bind_some, Tree.at?_nil, Option.map_some, type_resolveNode]
  · have hmem : n ∈ lookedUp c.registry c.elements := by
      rw [c.lookedUp_perm_visited.mem_iff]
      exact List.mem_filterMap.2 ⟨[i], hvisited, hat⟩
    have hmissing : missing n ∈ missingAmong c.registry (lookedUp c.registry c.elements) := by
      refine List.mem_map_of_mem (List.mem_filter.2 ⟨hmem, ?_⟩)
      rw [hnone]
      rfl
    exact ⟨List.mem_append_right _ hmissing, List.mem_map_of_mem hmissing⟩

/-- The first properties block is the one whose elements declare the properties. -/
theorem declarations_of_place (hn : root.children[i]? = some n)
    (hfirst : propertiesPlace? root = some i) : root.declarations = n.children := by
  obtain ⟨hi, hfound, hbefore⟩ := List.findIdx?_eq_some_iff_getElem.1 hfirst
  obtain ⟨_, rfl⟩ := List.getElem?_eq_some_iff.1 hn
  have hchild : root.child? propertiesName = some root.children[i] := by
    change root.children.find? isPropertiesBlock = _
    rw [List.find?_eq_some_iff_getElem]
    exact ⟨hfound, i, hi, rfl, fun j hj => by simpa using hbefore j hj⟩
  rw [Tree.declarations, hchild]
  rfl

/-- The first properties block is read. -/
theorem loads_of_first (h : make root registry visitors environment overrides = (.ok c, log))
    (hn : root.children[i]? = some n) (hfirst : propertiesPlace? root = some i) :
    c.Loads environment overrides n := by
  intro before t after name hsplit hname hafter hover
  exact get?_of_make_declared h ((declarations_of_place hn hfirst).trans hsplit) hname hafter hover

/-- Without a properties block behind the first one, the same properties are read. -/
theorem readProperties_withoutChild {j : Nat} (hfirst : propertiesPlace? root = some j)
    (hlt : j < i) (environment : Assoc String String) (overrides : Assoc String Value) :
    readProperties (root.withoutChild i) environment overrides =
      readProperties root environment overrides := by
  have hchild : (root.withoutChild i).child? propertiesName = root.child? propertiesName :=
    find?_eraseIdx_of_findIdx? hfirst hlt
  have htitle : (root.withoutChild i).title = root.title := rfl
  rw [readProperties, readProperties, hchild, htitle]

/-- A properties block behind the first one goes unheard. -/
theorem unheard_of_later (h : make root registry visitors environment overrides = (.ok c, log))
    (hn : root.children[i]? = some n) (hblock : isPropertiesBlock n = true)
    (hlater : propertiesPlace? root ≠ some i) : c.Unheard environment overrides log i := by
  obtain ⟨hc, hread⟩ := eq_of_make h
  have hroot : c.root = root := by rw [hc]
  have hregistry : c.registry = registry := by rw [hc]
  have hvisitors : c.visitors = visitors := by rw [hc]
  have hresolved : c.resolved = false := by rw [hc]
  obtain ⟨j, hfirst, hlt⟩ := lt_of_findIdx?_ne hn hblock hlater
  have helements : (c.withoutChild i).elements = c.elements := by
    rw [← hroot] at hn
    exact filter_eraseIdx_of_neg hn (by rw [hblock]; rfl)
  refine ⟨fun event => leftAlone_of_not_exposed hresolved event ?_, ?_, ?_, ?_⟩
  · change exposedElement (resolveRoot c.registry c.root) [i] = false
    rw [← reachesElement_eq_exposed, reachesElement, hroot, hn, Option.any_some, hblock]
    rfl
  · rw [hroot, hregistry, hvisitors, make, readProperties_withoutChild hfirst hlt, hread,
      withoutChild, hroot, hc]
    rfl
  · change c.diagnostics ++
        missingAmong c.registry (lookedUp c.registry (c.withoutChild i).elements)
      = c.diagnostics ++ missingAmong c.registry (lookedUp c.registry c.elements)
    rw [helements]
  · have hname : (c.withoutChild i).root.name = c.root.name := rfl
    have hsame : (c.withoutChild i).registry = c.registry := rfl
    rw [setup, setup, helements, hname, hsame]

end Child

/-- A configuration can be made of a root whose attributes are texts just if the names of all
variables that its properties look up can be encoded. Of each child of the root of a configuration,
one that is no properties block is looked up or reported, the first properties block is read, and
every other one goes unheard. -/
theorem forall_child_accounted (root : Node) (registry : Registry) (visitors : VisitorRegistry)
    (environment : Assoc String String) (overrides : Assoc String Value) :
    (root.Textual →
      ((∃ c log, make root registry visitors environment overrides = (.ok c, log)) ↔
        ∀ name ∈ root.variablesAsked environment, isEncodable name = true)) ∧
    ∀ c log, make root registry visitors environment overrides = (.ok c, log) →
      ∀ i n, root.children[i]? = some n →
        (isPropertiesBlock n = false → c.Resolved i n) ∧
        (propertiesPlace? root = some i → c.Loads environment overrides n) ∧
        (isPropertiesBlock n = true → propertiesPlace? root ≠ some i →
          c.Unheard environment overrides log i) := by
  refine ⟨fun htext => exists_make_iff htext registry visitors environment overrides,
    fun c log h i n hn => ⟨fun hblock => ?_, ?_, ?_⟩⟩
  · have hroot : c.root = root := by rw [(eq_of_make h).1]
    exact resolved_of_element (hroot ▸ hn) hblock
  · exact loads_of_first h hn
  · exact unheard_of_later h hn

/-- A root with an element that belongs to no plugin between two properties blocks. -/
private def attic : Node :=
  ⟨"Attic", [], none, .empty,
    [⟨"Properties", [], none, .empty, [Node.property "a" "1", Node.property "b" "$\x7ba\x7d2"]⟩,
      ⟨"Trunk", [], none, .empty, []⟩,
      ⟨"PROPERTIES", [], none, .empty, [Node.property "c" "3"]⟩]⟩

/-- The properties of the example. -/
private theorem readProperties_attic :
    attic.declarations.foldlM readProperty (.start []) =
      .ok ⟨[(.str "a", .str "1"), (.str "b", .str "12")], .process []⟩ := by cbv

/-- Of the two blocks the first is read and the second goes unheard, and the element between them is
reported. -/
theorem forall_child_accounted_attic :
    ∃ c log, make attic .empty .standard [] [] = (.ok c, log) ∧
      c.sources.properties.get? (.str "b") = some (.str "12") ∧
      (missing ⟨"Trunk", [], none, .empty, []⟩).record ∈ c.setup.2.log ∧
      c.LeftAlone none [2] ∧ (c.withoutChild 2).setup.2 = c.setup.2 := by
  obtain ⟨c, log, hc, _⟩ := exists_make readProperties_attic .empty .standard []
  have hchild := (forall_child_accounted attic .empty .standard [] []).2 c log hc
  have hempty : c.registry = .empty := by rw [(eq_of_make hc).1]
  have hblock := (hchild 0 _ rfl).2.1 (by decide +kernel)
  have htrunk := (hchild 1 _ rfl).1 (by decide +kernel)
  have hlater := (hchild 2 _ rfl).2.2 (by decide +kernel) (by decide +kernel)
  obtain ⟨s, v, hs, hv, hget⟩ :=
    hblock [Node.property "a" "1"] (Node.property "b" "$\x7ba\x7d2") [] "b" rfl rfl (by decide)
      (by decide)
  have hread : [Node.property "a" "1"].foldlM readProperty (.start []) =
      .ok ⟨[(.str "a", .str "1")], .process []⟩ := by cbv
  obtain rfl := Except.ok.inj (hread.symm.trans hs)
  have hvalue : declaredValue ⟨[(.str "a", .str "1")], .process []⟩
      (propertyValue (Node.property "b" "$\x7ba\x7d2")) = .ok (.str "12") := by cbv
  obtain rfl := Except.ok.inj (hvalue.symm.trans hv)
  exact ⟨c, log, hc, hget, (htrunk.reported (by rw [hempty]; rfl)).2, hlater.alone none,
    hlater.reports⟩

/-- Not every child is looked up or a properties block that is read. -/
theorem not_forall_resolved_or_loads :
    ¬ ∀ (root : Node) (registry : Registry) (visitors : VisitorRegistry)
      (environment : Assoc String String) (overrides : Assoc String Value) (c : Configuration)
      (log : Log), make root registry visitors environment overrides = (.ok c, log) →
      ∀ i n, root.children[i]? = some n →
        c.Resolved i n ∨ isPropertiesBlock n = true ∧ c.Loads environment overrides n := by
  intro h
  obtain ⟨c, log, hc, hsources⟩ := exists_make readProperties_attic .empty .standard []
  rcases h attic .empty .standard [] [] c log hc 2 _ rfl with hresolved | ⟨_, hloads⟩
  · have hunheard := unheard_of_later hc (i := 2) rfl (by decide +kernel) (by decide +kernel)
    exact (hunheard.alone none).unvisited hresolved.visited
  · obtain ⟨_, _, _, _, hget⟩ :=
      hloads [] (Node.property "c" "3") [] "c" rfl rfl (by decide) (by decide)
    have hnone : c.sources.properties.get? (.str "c") = none := by
      rw [hsources]
      rfl
    rw [hnone] at hget
    cases hget

end Configuration
end ConfigAssembly
