import ConfigAssembly.Proofs.Build.Spelling
import ConfigAssembly.Proofs.Configuration.InUse

/-!
# Configurations do not care about spelling

Two roots that differ only in how names of elements and keys of attributes are spelt go the same way
through everything: they have the same properties, the same plugin types are found
(`respelt_resolveRoot`), and each build keeps the instances the same (`respelt_buildRoot`). What the
properties block holds must be the same, since properties are found by their keys as written.
-/

namespace ConfigAssembly

open ConfigAssembly.Text

namespace Respelt

variable {n n' : Node}

/-! ### The same shape -/

/-- Nodes that are respelt stay so with children that are. -/
theorem withChildren (h : Respelt n n') {cs cs' : List Node} (hcs : List.Forall₂ Respelt cs cs') :
    Respelt (n.withChildren cs) (n'.withChildren cs') := by
  cases h with
  | intro name attributes keys keys' text slot _ =>
    exact .intro name attributes keys keys' text slot hcs

/-- So they do with the same type. -/
theorem withType (h : Respelt n n') (t : Option PluginType) :
    Respelt (n.withType t) (n'.withType t) := by
  cases h with
  | intro name attributes keys keys' text slot children =>
    exact .intro name attributes keys keys' text (congrArg (fun s => { s with type := t }) slot)
      children

/-- So they do with the same instance. -/
theorem withBuilt (h : Respelt n n') (x : Value) : Respelt (n.withBuilt x) (n'.withBuilt x) := by
  cases h with
  | intro name attributes keys keys' text slot children =>
    exact .intro name attributes keys keys' text (congrArg (fun s => { s with built := x }) slot)
      children

/-- The types are the same. -/
theorem type_eq (h : Respelt n n') : n.type = n'.type := congrArg Slots.type h.slot

/-- So is whether children are deferred. -/
theorem deferring_eq (h : Respelt n n') :
    Configuration.deferring n = Configuration.deferring n' := by
  rw [Configuration.deferring, Configuration.deferring, h.type_eq]

/-- So is whether the node is a block of properties. -/
theorem isPropertiesBlock_eq (h : Respelt n n') : isPropertiesBlock n = isPropertiesBlock n' := by
  rw [isPropertiesBlock, isPropertiesBlock, h.name]

/-- At each position one node is the other respelt. -/
theorem rel_at? (h : Respelt n n') (p : Position) :
    Option.Rel Respelt (n.at? p) (n'.at? p) := by
  induction p generalizing n n' with
  | nil => exact .some h
  | cons i p ih =>
    have hchild := rel_getElem? h.children i
    rw [Tree.at?_cons, Tree.at?_cons]
    generalize n.children[i]? = o, n'.children[i]? = o' at hchild
    cases hchild with
    | none => exact .none
    | some hc => exact ih hc

/-- The positions are the same. -/
theorem positions_eq (h : Respelt n n') : n.positions = n'.positions := by
  induction n using Tree.induct generalizing n' with
  | h n ih =>
    have hall : ∀ {cs cs' : List Node}, List.Forall₂ Respelt cs cs' → (∀ c ∈ cs, c ∈ n.children) →
        Tree.positionsAll cs = Tree.positionsAll cs' := by
      intro cs cs' hcs
      induction hcs with
      | nil => exact fun _ => rfl
      | @cons c c' cs cs' hc _ ihcs =>
        intro hmem
        rw [Tree.positionsAll, Tree.positionsAll, ih c (hmem c List.mem_cons_self) hc,
          ihcs fun d hd => hmem d (List.mem_cons_of_mem c hd)]
    rw [Tree.positions_eq, Tree.positions_eq, hall h.children fun _ hc => hc]

end Respelt

/-- Two spellings of a root; the elements in its properties blocks are the same. -/
structure RespeltRoot (root root' : Node) : Prop where
  respelt : Respelt root root'
  properties : List.Forall₂ (fun c c' => isPropertiesBlock c = true → c.children = c'.children)
    root.children root'.children

/-! ### Properties -/

/-- The title only shows in what is reported. -/
theorem declareProperties_title {σ : Type} (title title' : Value) (ts : List (Tree Value σ))
    (s : Sources) : (declareProperties title ts s).1 = (declareProperties title' ts s).1 := by
  induction ts generalizing s with
  | nil => rfl
  | cons t ts ih =>
    rw [declareProperties, declareProperties]
    split
    · exact ih s
    · cases declareProperty s ((t.attribute? "name").getD .null) (propertyValue t) with
      | error f => rfl
      | ok s => exact ih s

/-- The same properties are read from a respelt root. -/
theorem RespeltRoot.readProperties_eq {root root' : Node} (h : RespeltRoot root root')
    (environment : Assoc String String) (overrides : Assoc String Value) :
    (readProperties root environment overrides).1 =
      (readProperties root' environment overrides).1 := by
  have hblock : (root.child? propertiesName).elim [] (·.children) =
      (root'.child? propertiesName).elim [] (·.children) := by
    have hboth := h.respelt.children.mp (fun _ _ hc hp => And.intro hc hp) h.properties
    have hfound := rel_find? (fun _ _ hc => hc.1.sameName_eq propertiesName) hboth
    change Option.Rel _ (root.child? propertiesName) (root'.child? propertiesName) at hfound
    generalize root'.child? propertiesName = o' at hfound ⊢
    cases hb : root.child? propertiesName with
    | none =>
      rw [hb] at hfound
      cases hfound
      rfl
    | some b =>
      rw [hb] at hfound
      cases hfound with
      | some hc => exact hc.2 (List.find?_some hb)
  unfold readProperties
  dsimp only
  rw [hblock, declareProperties_title root.title root'.title]

namespace Configuration

/-! ### Setting up -/

section Setup

variable (r : Registry)

/-- Names that are the same in lower case name the same type. -/
theorem get?_congr {name name' : String} (h : lower name = lower name') :
    r.get? name = r.get? name' := by
  rw [Registry.get?, Registry.get?, Registry.resolve, Registry.resolve, h]

/-- So children are deferred under both or under none. -/
theorem defers_congr {name name' : String} (h : lower name = lower name') :
    defers r name = defers r name' := by
  rw [defers, defers, get?_congr r h]

/-- A node that is respelt is resolved to one that is. -/
theorem respelt_resolveNode {n n' : Node} (h : Respelt n n') :
    Respelt (resolveNode r n) (resolveNode r n') := by
  induction n using Tree.induct generalizing n' with
  | h n ih =>
    rw [resolveNode_eq, resolveNode_eq, get?_congr r h.name, defers_congr r h.name]
    refine (h.withChildren ?_).withType _
    split
    · exact h.children
    · exact forall₂_map h.children fun c hc c' hcc' => ih c hc hcc'

/-- The same plugin types are found for a respelt root. -/
theorem respelt_resolveRoot {root root' : Node} (h : Respelt root root') :
    Respelt (resolveRoot r root) (resolveRoot r root') := by
  rw [resolveRoot_eq, resolveRoot_eq, get?_congr r h.name, h.type_eq]
  refine (h.withChildren (forall₂_map h.children fun c hc c' hcc' => ?_)).withType _
  rw [hcc'.isPropertiesBlock_eq]
  split
  · exact hcc'
  · exact respelt_resolveNode r hcc'

/-- The same elements are looked up, in the same order. -/
theorem respelt_lookedUp {ns ns' : List Node} (h : List.Forall₂ Respelt ns ns') :
    List.Forall₂ Respelt (lookedUp r ns) (lookedUp r ns') := by
  fun_induction lookedUp r ns generalizing ns' with
  | case1 =>
    cases h
    rw [lookedUp]
    exact .nil
  | case2 n ns ih =>
    cases h with
    | @cons _ n' _ ns' hn hns =>
      have hbelow : List.Forall₂ Respelt (lookedUpBelow r n) (lookedUpBelow r n') := by
        rw [lookedUpBelow, lookedUpBelow, defers_congr r hn.name]
        split
        · exact .nil
        · exact hn.children
      rw [lookedUp]
      exact .cons hn (ih (List.rel_append hns hbelow))

/-- As many elements belong to no plugin. -/
theorem outline_missingAmong {ns ns' : List Node} (h : List.Forall₂ Respelt ns ns') :
    (missingAmong r ns).map (·.outline) = (missingAmong r ns').map (·.outline) := by
  have hmissing := forall₂_filter (p := fun n => (r.get? n.name).isNone)
    (q := fun n => (r.get? n.name).isNone) (fun n n' hn => by rw [get?_congr r hn.name]) h
  rw [missingAmong, missingAmong, List.map_map, List.map_map]
  exact map_eq_of_forall₂ (fun _ _ _ => rfl) hmissing

/-- Instances are built of elements at the same positions. -/
theorem eligible_respelt {root root' : Node} (h : Respelt root root') (p : Position) :
    eligible r root p = eligible r root' p := by
  have hroot := respelt_resolveRoot r h
  cases p with
  | nil => rw [eligible, eligible, hroot.type_eq]
  | cons i p =>
    have hblock := any_eq_of_rel (p := fun n => !isPropertiesBlock n)
      (q := fun n => !isPropertiesBlock n) (fun _ _ hc => by rw [hc.isPropertiesBlock_eq])
      (rel_getElem? h.children i)
    have hname := any_eq_of_rel (p := fun n => (r.get? n.name).isSome)
      (q := fun n => (r.get? n.name).isSome) (fun _ _ hn => by rw [get?_congr r hn.name])
      (h.rel_at? (i :: p))
    have habove : ∀ q, ((resolveRoot r root).at? (i :: q)).any deferring =
        ((resolveRoot r root').at? (i :: q)).any deferring := fun q =>
      any_eq_of_rel (fun _ _ hn => hn.deferring_eq) (hroot.rel_at? (i :: q))
    rw [eligible, eligible, hblock, hname]
    simp only [habove]

end Setup

/-! ### Building -/

section Build

variable {s : Services} {e : Option Event}

/-- The results say the same but for words, and the same fault is handed on, if any. -/
structure Built.SameOutlines (a a' : Built) : Prop where
  results : a.results.map (·.outline) = a'.results.map (·.outline)
  raised : a.raised = a'.raised

/-- Of the same builds the same can be said. -/
theorem Built.SameOutlines.refl (a : Built) : a.SameOutlines a := ⟨rfl, rfl⟩

/-- Builds one after the other say the same if each of them does. -/
theorem Built.SameOutlines.append {a a' b b' : Built} (ha : a.SameOutlines a')
    (hb : b.SameOutlines b') : (a.append b).SameOutlines (a'.append b') where
  results := by
    change (a.results ++ b.results).map _ = (a'.results ++ b'.results).map _
    rw [List.map_append, List.map_append, ha.results, hb.results]
  raised := by
    change a.raised.or b.raised = a'.raised.or b'.raised
    rw [ha.raised, hb.raised]

/-- Both go on, or neither does. -/
theorem Built.SameOutlines.goOn {α : Type} {R : α → α → Prop} {b b' : Built}
    (hb : b.SameOutlines b') (others others' : Unit → α × Built) {left left' : α}
    (hleft : R left left')
    (hothers : R (others ()).1 (others' ()).1 ∧ (others ()).2.SameOutlines (others' ()).2) :
    R (b.goOn left others).1 (b'.goOn left' others').1 ∧
      (b.goOn left others).2.SameOutlines (b'.goOn left' others').2 := by
  cases hraised : b.raised with
  | some f =>
    rw [Built.goOn_of_raised hraised, Built.goOn_of_raised (hb.raised ▸ hraised)]
    exact ⟨hleft, hb⟩
  | none =>
    rw [Built.goOn_of_none hraised, Built.goOn_of_none (hb.raised ▸ hraised)]
    exact ⟨hothers.1, hb.append hothers.2⟩

/-- Of a respelt element the same instance is built. -/
theorem respelt_buildOne {n n' : Node} (hn : Respelt n n')
    (h : ∀ t, n.type = some t → t.BoundBy Visitor.CaseBlind s.visitors) (k : Value)
    (reserved : List String) :
    Respelt (buildOne s e reserved n).1
        (buildOne { s with configuration := k } e reserved n').1 ∧
      (buildOne s e reserved n).2.SameOutlines
        (buildOne { s with configuration := k } e reserved n').2 := by
  cases ht : n.type with
  | none =>
    rw [buildOne_of_none ht, buildOne_of_none (hn.type_eq.symm.trans ht)]
    exact ⟨hn, .refl _⟩
  | some t =>
    have ht' : n'.type = some t := hn.type_eq.symm.trans ht
    have hrun : (job s e reserved t n).run.1.map (·.outline) =
        (job { s with configuration := k } e reserved t n').run.1.map (·.outline) :=
      Job.outline_run_onto (j := job s e reserved t n) hn (h t ht) k
    cases hr : (job s e reserved t n).run.1 with
    | error f =>
      cases hr' : (job { s with configuration := k } e reserved t n').run.1 with
      | ok r' =>
        rw [hr, hr'] at hrun
        cases hrun
      | error f' =>
        rw [hr, hr'] at hrun
        obtain rfl : f = f' := Except.error.inj hrun
        rw [buildOne_of_error ht hr, buildOne_of_error ht' hr']
        exact ⟨hn, rfl, rfl⟩
    | ok r =>
      cases hr' : (job { s with configuration := k } e reserved t n').run.1 with
      | error f' =>
        rw [hr, hr'] at hrun
        cases hrun
      | ok r' =>
        rw [hr, hr'] at hrun
        have houtline : r.outline = r'.outline := Except.ok.inj hrun
        have hbuilt : r.built = r'.built := congrArg Outline.built houtline
        rw [buildOne_of_ok ht hr, buildOne_of_ok ht' hr', hbuilt]
        exact ⟨hn.withBuilt _, congrArg (fun o => [o]) houtline, rfl⟩

/-- Of respelt elements the same instances are built one after the other, if this holds of each. -/
theorem respelt_buildNodes {k : Value} {ns ns' : List Node} (hns : List.Forall₂ Respelt ns ns')
    (h : ∀ n ∈ ns, ∀ n', Respelt n n' →
      Respelt (buildNode s e n).1 (buildNode { s with configuration := k } e n').1 ∧
        (buildNode s e n).2.SameOutlines
          (buildNode { s with configuration := k } e n').2) :
    List.Forall₂ Respelt (buildNodes s e ns).1
        (buildNodes { s with configuration := k } e ns').1 ∧
      (buildNodes s e ns).2.SameOutlines
        (buildNodes { s with configuration := k } e ns').2 := by
  induction hns with
  | nil => exact ⟨.nil, .refl _⟩
  | @cons n n' ns ns' hn hns ih =>
    obtain ⟨hnode, hfirst⟩ := h n List.mem_cons_self n' hn
    obtain ⟨hnodes, hall⟩ := hfirst.goOn (fun _ => buildNodes s e ns)
      (fun _ => buildNodes { s with configuration := k } e ns') hns
      (ih fun m hm => h m (List.mem_cons_of_mem n hm))
    rw [buildNodes_cons, buildNodes_cons]
    exact ⟨.cons hnode hnodes, hall⟩

/-- Of a respelt element and those below it the same instances are built. -/
theorem respelt_buildNode {n n' : Node} (hn : Respelt n n')
    (h : Bound Visitor.CaseBlind s.visitors n) (k : Value) :
    Respelt (buildNode s e n).1 (buildNode { s with configuration := k } e n').1 ∧
      (buildNode s e n).2.SameOutlines
        (buildNode { s with configuration := k } e n').2 := by
  induction n using Tree.induct generalizing n' with
  | h n ih =>
    cases hd : deferring n with
    | true =>
      rw [buildNode_of_deferring hd, buildNode_of_deferring (hn.deferring_eq.symm.trans hd)]
      exact respelt_buildOne hn (fun t => h.type) k []
    | false =>
      obtain ⟨hbelow, hresults⟩ := respelt_buildNodes (k := k) (s := s) (e := e) hn.children
        fun c hc c' hcc' => ih c hc hcc' (h.child hc)
      rw [buildNode_of_not_deferring hd,
        buildNode_of_not_deferring (hn.deferring_eq.symm.trans hd)]
      exact hresults.goOn _ _ (hn.withChildren hbelow)
        (respelt_buildOne (hn.withChildren hbelow) (fun t => h.type) k [])

/-- Of the respelt children of a root the same instances are built. -/
theorem respelt_buildElements {ns ns' : List Node} (hns : List.Forall₂ Respelt ns ns')
    (h : ∀ n ∈ ns, Bound Visitor.CaseBlind s.visitors n) (k : Value) :
    List.Forall₂ Respelt (buildElements s e ns).1
        (buildElements { s with configuration := k } e ns').1 ∧
      (buildElements s e ns).2.SameOutlines
        (buildElements { s with configuration := k } e ns').2 := by
  induction hns with
  | nil => exact ⟨.nil, .refl _⟩
  | @cons n n' ns ns' hn hns ih =>
    have ih := ih fun m hm => h m (List.mem_cons_of_mem n hm)
    cases hp : isPropertiesBlock n with
    | true =>
      rw [buildElements_cons_of_block hp,
        buildElements_cons_of_block (hn.isPropertiesBlock_eq.symm.trans hp)]
      exact ⟨.cons hn ih.1, ih.2⟩
    | false =>
      obtain ⟨hnode, hfirst⟩ := respelt_buildNode (e := e) hn (h n List.mem_cons_self) k
      obtain ⟨hnodes, hall⟩ := hfirst.goOn (fun _ => buildElements s e ns)
        (fun _ => buildElements { s with configuration := k } e ns') hns ih
      rw [buildElements_cons hp, buildElements_cons (hn.isPropertiesBlock_eq.symm.trans hp)]
      exact ⟨.cons hnode hnodes, hall⟩

/-- Of a respelt root and the elements below it the same instances are built. -/
theorem respelt_buildRoot {root root' : Node} (hroot : Respelt root root')
    (h : Bound Visitor.CaseBlind s.visitors root) (k : Value) :
    Respelt (buildRoot s e root).1 (buildRoot { s with configuration := k } e root').1 ∧
      (buildRoot s e root).2.SameOutlines
        (buildRoot { s with configuration := k } e root').2 := by
  obtain ⟨hbelow, hresults⟩ := respelt_buildElements (e := e) hroot.children
    (fun c hc => h.child hc) k
  rw [buildRoot_eq, buildRoot_eq]
  exact hresults.goOn _ _ (hroot.withChildren hbelow)
    (respelt_buildOne (hroot.withChildren hbelow) (fun t => h.type) k [propertiesName])

end Build

/-! ### Two spellings of a configuration -/

section Spellings

variable {c : Configuration} {root' : Node}

/-- The configuration with another root. -/
def withRoot (c : Configuration) (root' : Node) : Configuration := { c with root := root' }

/-- A first build of a respelt root keeps the elements in correspondence and gives the same results
but for words. -/
theorem respelt_build (hresolved : c.resolved = false) (hresults : c.results = [])
    (h : Respelt c.root root')
    (hinputs : ∀ t, InUse c.registry c.root t → t.BoundBy Visitor.CaseBlind c.visitors)
    (event : Option Event) :
    Respelt (c.build event).configuration.root ((c.withRoot root').build event).configuration.root ∧
      (c.build event).configuration.results.map (·.outline) =
        ((c.withRoot root').build event).configuration.results.map (·.outline) ∧
      (c.build event).raised = ((c.withRoot root').build event).raised := by
  have hresolved' : (c.withRoot root').resolved = false := hresolved
  have hbound : Bound Visitor.CaseBlind c.visitors c.setup.1.root := by
    rw [← ready_of_not_resolved hresolved]
    exact .ready hinputs
  obtain ⟨hroot, houtlines⟩ := respelt_buildRoot (s := c.setup.1.services) (e := event)
    (respelt_resolveRoot c.registry h) hbound (.configuration (c.withRoot root').setup.1.name)
  obtain ⟨hroot₁, hresults₁, hraised₁⟩ := built_build hresolved hresults event
  obtain ⟨hroot₂, hresults₂, hraised₂⟩ := built_build hresolved' hresults event
  rw [hroot₁, hroot₂, hresults₁, hresults₂, hraised₁, hraised₂]
  exact ⟨hroot, houtlines.results, houtlines.raised⟩

/-- The results of first builds are placed at the same positions. -/
theorem placed_respelt (h : Respelt c.root root') {event : Option Event}
    (hresults : (c.build event).configuration.results.map (·.outline) =
      ((c.withRoot root').build event).configuration.results.map (·.outline)) :
    (c.placed event).map (Prod.map id BuildResult.outline) =
      ((c.withRoot root').placed event).map (Prod.map id BuildResult.outline) := by
  have hplaces : c.root.positions.filter (eligible c.registry c.root) =
      root'.positions.filter (eligible c.registry root') := by
    rw [h.positions_eq]
    exact List.filter_congr fun p _ => eligible_respelt c.registry h p
  rw [placed, placed, ← List.zip_map_right, ← List.zip_map_right, hresults, hplaces]
  rfl

/-- The diagnostics of first builds are of the same levels and kinds. -/
theorem outline_diagnostics_respelt (hresolved : c.resolved = false) (hresults : c.results = [])
    (h : Respelt c.root root') {event : Option Event}
    (houtlines : (c.build event).configuration.results.map (·.outline) =
      ((c.withRoot root').build event).configuration.results.map (·.outline)) :
    (c.build event).configuration.diagnostics.map (·.outline) =
      ((c.withRoot root').build event).configuration.diagnostics.map (·.outline) := by
  have helements : List.Forall₂ Respelt c.elements (c.withRoot root').elements :=
    forall₂_filter (fun _ _ hc => by rw [hc.isPropertiesBlock_eq]) h.children
  have hsetup : c.setup.1.diagnostics.map (·.outline) =
      (c.withRoot root').setup.1.diagnostics.map (·.outline) := by
    have hmissing := outline_missingAmong c.registry (respelt_lookedUp c.registry helements)
    rw [setup, setup, List.map_append, List.map_append, hmissing]
    rfl
  have hresult : ∀ rs : List BuildResult, (rs.flatMap (·.diagnostics)).map (·.outline) =
      (rs.map (·.outline)).flatMap (·.diagnostics) := by
    intro rs
    rw [List.map_flatMap, List.flatMap_map]
    rfl
  have hresolved' : (c.withRoot root').resolved = false := hresolved
  rw [diagnostics_build hresolved hresults, diagnostics_build hresolved' hresults, List.map_append,
    List.map_append, hsetup, hresult, hresult, houtlines]

end Spellings

/-- Two spellings of a root are made into configurations and built alike, whatever plugins, visitors
and overrides there are: no input asks for its element or for the configuration, and the visitors
for all other kinds of markers do not care about spelling, as the built-in ones. Either a
configuration can be made of neither, for the same reason, or one can be made of both. Then the same
plugin types and instances are noted at all positions after a first build, its results are those of
the elements at the same positions, with the same instances and paths, the diagnostics of each
result and of the configuration have the same levels and kinds, and both builds hand on the same
fault, if any. -/
theorem build_respelt {root root' : Node} (h : RespeltRoot root root') (registry : Registry)
    (visitors : VisitorRegistry) (environment : Assoc String String)
    (overrides : Assoc String Value) (event : Option Event)
    (hdetached : ∀ t, InUse registry root t → t.Detached)
    (hvisitors : ∀ kind d, visitors.find? kind = some d → kind ≠ Origin.node.kind →
      kind ≠ Origin.configuration.kind → d.CaseBlind) :
    (∃ f, (make root registry visitors environment overrides).1 = .error f ∧
      (make root' registry visitors environment overrides).1 = .error f) ∨
    ∃ c c', (make root registry visitors environment overrides).1 = .ok c ∧
      (make root' registry visitors environment overrides).1 = .ok c' ∧
      (∀ p, ((c.build event).configuration.root.at? p).map Tree.slot =
        ((c'.build event).configuration.root.at? p).map Tree.slot) ∧
      (c.placed event).map Prod.snd = (c.build event).configuration.results ∧
      (c'.placed event).map Prod.snd = (c'.build event).configuration.results ∧
      (c.placed event).map (Prod.map id BuildResult.outline) =
        (c'.placed event).map (Prod.map id BuildResult.outline) ∧
      (c.build event).configuration.diagnostics.map Diagnostic.outline =
        (c'.build event).configuration.diagnostics.map Diagnostic.outline ∧
      (c.build event).raised = (c'.build event).raised := by
  have hread := h.readProperties_eq environment overrides
  cases hsources : (readProperties root environment overrides).1 with
  | error f =>
    refine .inl ⟨f, ?_, ?_⟩
    · simp [make, hsources, Except.map]
    · simp [make, ← hread, hsources, Except.map]
  | ok sources =>
    let c : Configuration := ⟨root, registry, visitors, sources, false, [], []⟩
    let c' : Configuration := c.withRoot root'
    have hinputs : ∀ t, InUse registry root t → t.BoundBy Visitor.CaseBlind visitors :=
      fun t ht => (hdetached t ht).boundBy hvisitors
    obtain ⟨hroot, hresults, hraised⟩ := respelt_build (c := c) rfl rfl h.respelt hinputs event
    refine .inr ⟨c, c', ?_, ?_, ?_, ?_, ?_, ?_, ?_, hraised⟩
    · simp [make, hsources, Except.map, c]
    · simp [make, ← hread, hsources, Except.map, c', c, withRoot]
    · intro p
      exact map_eq_of_rel (fun _ _ hn => hn.slot) (hroot.rel_at? p)
    · exact map_snd_placed rfl rfl event
    · exact map_snd_placed rfl rfl event
    · exact placed_respelt h.respelt hresults
    · exact outline_diagnostics_respelt rfl rfl h.respelt hresults

/-- A plugin whose elements have a label and collect the cards below them, and one that offers no
way of construction. -/
private def drawerRegistry : Registry :=
  let drawer : PluginType := ⟨⟨0, "Drawer", "plugins", []⟩,
    PluginType.describe ⟨0, "Drawer", "plugins", []⟩ .standard,
    ⟨none, some ⟨"create", [⟨"label", [⟨.attribute .null true false true, some "label"⟩], [],
      .basic .str, some 0⟩, ⟨"cards", [⟨.element true, some "Card"⟩], [], .basic .list, some 1⟩],
      fun xs => .ok (.list xs)⟩⟩⟩
  ⟨[("drawer", drawer), ("card", .idle 1 "Card" [])], [], true⟩

/-- A root with a property and a drawer, in which two keys of one element differ only in case. -/
private def drawers (root block drawer key key' card : String) : Node :=
  ⟨root, [], none, .empty,
    [⟨block, [], none, .empty,
      [⟨"Property", [("name", .str "k"), ("value", .str "v")], none, .empty, []⟩]⟩,
      ⟨drawer, [(key, .str "a"), (key', .str "${k}")], none, .empty,
        [⟨card, [], none, .empty, []⟩]⟩]⟩

/-- What the results of a first build of a root are, in words. -/
private def resultTexts (root : Node) : Option (List (String × List String)) :=
  (make root drawerRegistry .standard [] []).1.toOption.map fun c =>
    (c.build none).configuration.results.map fun r =>
      (r.outline.built.text, r.outline.diagnostics.map (·.2.label))

/-- The types in the example hand out neither the node nor the configuration. -/
private theorem detached_of_inUse {root : Node}
    (hroot : root.walk.all (fun n => (Node.type n).isNone) = true) {t : PluginType}
    (ht : InUse drawerRegistry root t) : t.Detached := by
  rcases ht with ht | ⟨n, hn, ht⟩
  · rcases List.mem_pair.1 ht with rfl | rfl
    · refine ⟨by rintro f b ⟨⟩, ?_⟩
      rintro f ⟨⟩ i hi m hm
      rcases List.mem_pair.1 hi with rfl | rfl <;> rw [List.mem_singleton.1 hm] <;> decide
    · exact ⟨by rintro f b ⟨⟩, by rintro f ⟨⟩⟩
  · have hnone := List.all_eq_true.1 hroot n hn
    rw [ht] at hnone
    cases hnone

/-- The second tree of the example is the first respelt. -/
private theorem respelt_drawers :
    RespeltRoot (drawers "Config" "Properties" "Drawer" "Label" "label" "Card")
      (drawers "CONFIG" "properties" "dRAWER" "label" "LABEL" "card") := by
  have hproperty : Respelt ⟨"Property", [("name", .str "k"), ("value", .str "v")], none, .empty, []⟩
      ⟨"Property", [("name", .str "k"), ("value", .str "v")], none, .empty, []⟩ :=
    .intro rfl (.cons ⟨rfl, rfl⟩ (.cons ⟨rfl, rfl⟩ .nil)) (by decide) (by decide) rfl rfl .nil
  have hcard : Respelt ⟨"Card", [], none, .empty, []⟩ ⟨"card", [], none, .empty, []⟩ :=
    .intro (by decide) .nil (by decide) (by decide) rfl rfl .nil
  refine ⟨.intro (by decide) .nil (by decide) (by decide) rfl rfl (.cons ?_ (.cons ?_ .nil)),
    .cons (fun _ => rfl) (.cons (fun h => absurd h (by decide)) .nil)⟩
  · exact .intro (by decide) .nil (by decide) (by decide) rfl rfl (.cons hproperty .nil)
  · exact .intro (by decide) (.cons ⟨by decide, rfl⟩ (.cons ⟨by decide, rfl⟩ .nil)) (by decide)
      (by decide) rfl rfl (.cons hcard .nil)

/-- A drawer is built and reported on in the same way however its names and keys are spelt. -/
theorem build_respelt_drawers :
    resultTexts (drawers "Config" "Properties" "Drawer" "Label" "label" "Card") =
        some [("None", ["resolution_miss", "resolution_miss"]),
          ("['v', [None]]", ["resolution_miss", "unused_attribute"])] ∧
      resultTexts (drawers "Config" "Properties" "Drawer" "Label" "label" "Card") =
        resultTexts (drawers "CONFIG" "properties" "dRAWER" "label" "LABEL" "card") := by
  refine ⟨by decide +kernel, ?_⟩
  have htexts : ∀ c : Configuration,
      (c.placed none).map Prod.snd = (c.build none).configuration.results →
      ((c.build none).configuration.results.map fun r =>
          (r.outline.built.text, r.outline.diagnostics.map (·.2.label))) =
        ((c.placed none).map (Prod.map id BuildResult.outline)).map fun e =>
          (e.2.built.text, e.2.diagnostics.map (·.2.label)) := by
    intro c hplaced
    rw [← hplaced, List.map_map, List.map_map]
    rfl
  rcases build_respelt respelt_drawers drawerRegistry .standard [] [] none
      (fun t ht => detached_of_inUse (by decide +kernel) ht)
      (fun kind d => Visitor.caseBlind_of_find?_standard) with
    ⟨f, h, h'⟩ | ⟨c, c', h, h', _, hplaced, hplaced', hsame, _⟩
  · rw [resultTexts, resultTexts, h, h']
  · rw [resultTexts, resultTexts, h, h']
    simp only [Except.toOption, Option.map_some, htexts c hplaced, htexts c' hplaced', hsame]

/-- A visitor that delivers the name of its element. -/
private def titleVisitor : Visitor where
  label := "TitleVisitor"
  kind := "title"
  visit v c := ⟨.ok (.str v.node.name), c, []⟩

/-- A plugin whose elements have an input for this visitor. -/
private def tagRegistry : Registry :=
  ⟨[("tag", ⟨⟨0, "Tag", "plugins", []⟩, PluginType.describe ⟨0, "Tag", "plugins", []⟩ .standard,
    ⟨none, some ⟨"create", [⟨"title", [⟨.custom "title", some "title"⟩], [], .basic .str, some 0⟩],
      fun xs => .ok (.list xs)⟩⟩⟩)], [], true⟩

/-- An element with nothing in it. -/
private def tag (name : String) : Node := ⟨name, [], none, .empty, []⟩

/-- A visitor of another kind may deliver a name as it is spelt. -/
theorem not_forall_build_respelt :
    ¬ ∀ (root root' : Node) (registry : Registry) (visitors : VisitorRegistry)
      (environment : Assoc String String) (overrides : Assoc String Value) (c c' : Configuration)
      (event : Option Event), RespeltRoot root root' →
      (∀ t, InUse registry root t → t.Detached) →
      (make root registry visitors environment overrides).1 = .ok c →
      (make root' registry visitors environment overrides).1 = .ok c' →
      (c.build event).configuration.results.map (·.built) =
        (c'.build event).configuration.results.map (·.built) := by
  intro h
  have hspelt : RespeltRoot (tag "Tag") (tag "TAG") :=
    ⟨.intro (by decide) .nil (by decide) (by decide) rfl rfl .nil, .nil⟩
  have hdetached : ∀ t, InUse tagRegistry (tag "Tag") t → t.Detached := by
    rintro t (ht | ⟨n, hn, ht⟩)
    · obtain rfl := List.mem_singleton.1 ht
      refine ⟨by rintro f b ⟨⟩, ?_⟩
      rintro f ⟨⟩ i hi m hm
      obtain rfl := List.mem_singleton.1 hi
      obtain rfl := List.mem_singleton.1 hm
      decide
    · obtain rfl := List.mem_singleton.1 hn
      cases ht
  have hmake : ∀ name, (make (tag name) tagRegistry ⟨[("title", titleVisitor)], true⟩ [] []).1 =
      .ok ⟨tag name, tagRegistry, ⟨[("title", titleVisitor)], true⟩, ⟨[], .process []⟩, false,
        [], []⟩ := fun _ => rfl
  have hsame := h (tag "Tag") (tag "TAG") tagRegistry ⟨[("title", titleVisitor)], true⟩ [] [] _ _
    none hspelt hdetached (hmake "Tag") (hmake "TAG")
  have htexts := congrArg (List.map Value.text) hsame
  revert htexts
  decide +kernel

end Configuration
end ConfigAssembly
