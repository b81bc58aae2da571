import ConfigAssembly.Configuration
import ConfigAssembly.Proofs.Position
import ConfigAssembly.Proofs.Substitution.Round

/-!
# Making a configuration and setting it up

* `eq_of_make`: what a configuration is when it was made.
* `map_built_resolveRoot`: setting up changes nothing but plugin types.
* `isBuilt_resolveRoot`: of which elements an instance is built after it. `isBuilt` reads this off
  the plugin types on the way down from the root, as a build does; `eligible` says it in terms of
  the names that the registry knows and of the elements above.
* `lookedUp_perm`: the queue looks up just the elements with no deferring element above, and
  `type_at?_resolveNode` says which types they have then.
-/

namespace ConfigAssembly

/-- The attributes of all elements are texts. -/
def Tree.Textual {σ : Type} (t : Tree Value σ) : Prop :=
  ∀ e ∈ t.walk, ∀ a ∈ e.attributes, ∃ s, a.2 = .str s

namespace Tree.Textual

variable {σ : Type} {t : Tree Value σ}

/-- The attributes of the children are texts as well. -/
theorem children (h : t.Textual) {c : Tree Value σ} (hc : c ∈ t.children) : c.Textual :=
  fun _ he => h _ (mem_walk_of_mem_children hc he)

/-- An attribute that is there is a text. -/
theorem attribute? (h : t.Textual) {key : String} {v : Value} (hv : t.attribute? key = some v) :
    ∃ s, v = .str s := by
  obtain ⟨before, after, he, _⟩ := List.lookup_eq_some_iff.1 hv
  exact h t t.mem_walk_self (key, v) (by simp [he])

/-- The value of a property is a text. -/
theorem propertyValue (h : t.Textual) : ∃ s, propertyValue t = .str s := by
  unfold ConfigAssembly.propertyValue
  split
  · exact ⟨_, rfl⟩
  · cases hv : t.attribute? "value" with
    | none => exact ⟨_, rfl⟩
    | some v => exact h.attribute? hv

end Tree.Textual

/-- A property whose name is a text is declared as a text whose tokens can be replaced has them. -/
theorem declareProperty_str (s : Sources) (name text : String) :
    declareProperty s (.str name) (.str text) =
      (s.replaced none text).map fun v =>
        { s with properties := s.properties.insert (.str name) (.str v) } := by
  have hvalue : declaredValue s (.str text) = (s.replaced none text).map .str := rfl
  rw [declareProperty, hvalue]
  cases s.replaced none text <;> rfl

/-- Declaring a property leaves the environment as it is. -/
theorem environment_declareProperty {s s' : Sources} {name v : Value}
    (h : declareProperty s name v = .ok s') : s'.environment = s.environment := by
  unfold declareProperty at h
  cases hv : declaredValue s v with
  | error f => simp [hv, bind, Except.bind] at h
  | ok v' =>
    cases hc : name.changeable? with
    | some part => simp [hv, hc, bind, Except.bind, throw, throwThe, MonadExceptOf.throw] at h
    | none =>
      simp only [hv, hc, bind, Except.bind, pure, Except.pure, Except.ok.injEq] at h
      rw [← h]

/-- Declaring properties leaves the environment as it is. -/
theorem environment_declareProperties {σ : Type} {title : Value} {ts : List (Tree Value σ)}
    {s s' : Sources} {log : Log} (h : declareProperties title ts s = (.ok s', log)) :
    s'.environment = s.environment := by
  induction ts generalizing s log with
  | nil =>
    cases h
    rfl
  | cons t ts ih =>
    rw [declareProperties] at h
    split at h
    · obtain ⟨hs, _⟩ := Prod.mk.inj h
      exact ih (Prod.ext hs rfl)
    · cases hd : declareProperty s ((t.attribute? "name").getD .null) (propertyValue t) with
      | error f => simp [hd] at h
      | ok s₁ =>
        simp only [hd] at h
        rw [ih h, environment_declareProperty hd]

/-- What a mapped success comes from. -/
theorem exists_of_map_eq_ok {ε α β : Type} {x : Except ε α} {f : α → β} {b : β}
    (h : x.map f = .ok b) : ∃ a, x = .ok a ∧ f a = b := by
  cases x with
  | error e => cases h
  | ok a => exact ⟨a, rfl, Except.ok.inj h⟩

namespace Configuration

/-- What is looked up in the environment of a configuration is a text. -/
theorem textual_of_make {root : Node} {registry : Registry} {visitors : VisitorRegistry}
    {environment : Assoc String String} {overrides : Assoc String Value} {c : Configuration}
    {log : Log} (h : make root registry visitors environment overrides = (.ok c, log)) :
    c.sources.Textual := by
  unfold make readProperties at h
  obtain ⟨hc, _⟩ := Prod.mk.inj h
  obtain ⟨s, hs, rfl⟩ := exists_of_map_eq_ok hc
  obtain ⟨s', hs', rfl⟩ := exists_of_map_eq_ok hs
  have henv : s'.environment = .process environment :=
    environment_declareProperties (Prod.ext hs' rfl)
  intro name v hv
  exact Environment.textual_process environment name v (henv ▸ hv)

/-- Nothing has happened yet to a configuration that was just made. -/
theorem eq_of_make {root : Node} {registry : Registry} {visitors : VisitorRegistry}
    {environment : Assoc String String} {overrides : Assoc String Value} {c : Configuration}
    {log : Log} (h : make root registry visitors environment overrides = (.ok c, log)) :
    c = ⟨root, registry, visitors, c.sources, false, [], []⟩ ∧
      readProperties root environment overrides = (.ok c.sources, log) := by
  unfold make at h
  obtain ⟨hc, hlog⟩ := Prod.mk.inj h
  obtain ⟨s, hs, rfl⟩ := exists_of_map_eq_ok hc
  exact ⟨rfl, Prod.ext hs hlog⟩

/-! ### Setting up -/

section Setup

variable (r : Registry)

/-- Several nodes have their types noted one by one. -/
theorem resolveNodes_eq (ns : List Node) : resolveNodes r ns = ns.map (resolveNode r) := by
  induction ns with
  | nil => rfl
  | cons n ns ih => rw [resolveNodes, ih, List.map_cons]

/-- Types are noted at the children unless the plugin defers them. -/
theorem children_resolveNode (n : Node) :
    (resolveNode r n).children =
      if defers r n.name then n.children else n.children.map (resolveNode r) := by
  cases n
  rw [resolveNode, resolveNodes_eq]

/-- The type that is noted is the one of the name. -/
theorem type_resolveNode (n : Node) : (resolveNode r n).type = r.get? n.name := by
  cases n
  rfl

/-- Looking plugin types up changes nothing else about a node and those below it. -/
theorem map_built_resolveNode (n : Node) :
    (resolveNode r n).map id Slots.built = n.map id Slots.built := by
  induction n using Tree.induct with
  | h n ih =>
    obtain ⟨name, attributes, text, slot, children⟩ := n
    rw [resolveNode, resolveNodes_eq, Tree.map_eq, Tree.map_eq]
    cases defers r name with
    | true => rfl
    | false =>
      have hchildren : (children.map (resolveNode r)).map (Tree.map id Slots.built) =
          children.map (Tree.map id Slots.built) := by
        rw [List.map_map]
        exact List.map_congr_left ih
      simp [hchildren]

/-- Types are noted at the children of the root that declare no properties. -/
theorem children_resolveRoot (root : Node) :
    (resolveRoot r root).children =
      root.children.map fun n => if isPropertiesBlock n then n else resolveNode r n := by
  unfold resolveRoot
  split <;> rfl

/-- Setting up changes nothing but plugin types. -/
theorem map_built_resolveRoot (root : Node) :
    (resolveRoot r root).map id Slots.built = root.map id Slots.built := by
  have hchildren : (resolveRoot r root).children.map (Tree.map id Slots.built) =
      root.children.map (Tree.map id Slots.built) := by
    rw [children_resolveRoot, List.map_map]
    refine List.map_congr_left fun n _ => ?_
    rw [Function.comp_apply]
    split
    · rfl
    · exact map_built_resolveNode r n
  rw [Tree.map_eq, Tree.map_eq, hchildren]
  unfold resolveRoot
  split <;> rfl

/-- The instance at a position is that of the tree without its plugin types. -/
theorem map_built_at? (n : Node) (p : Position) :
    (n.at? p).map Node.built = ((n.map id Slots.built).at? p).map Tree.slot := by
  rw [Tree.at?_map]
  cases n.at? p with
  | none => rfl
  | some m =>
    cases m
    rfl

/-- The plugin of a node looks after the elements below it. -/
def deferring (n : Node) : Bool := n.type.any (·.deferChildren)

/-- Whether an instance is built of the element at a position below a node, the node itself
included: there is a plugin type at it, and no plugin above it, up to the node, defers. -/
def isBuilt : Node → Position → Bool
  | n, [] => n.type.isSome
  | n, i :: p => !deferring n && n.children[i]?.any (isBuilt · p)

/-- Whether the plugin type of the element at a position is set or looked up and found, given the
tree before setting up: at the root the type is set afterwards; below it, the element is not in a
properties block, its name is known, and no element above it, below the root, has a plugin that
defers afterwards. -/
def eligible (root : Node) : Position → Bool
  | [] => (resolveRoot r root).type.isSome
  | i :: p =>
    root.children[i]?.any (fun n => !isPropertiesBlock n) &&
    (root.at? (i :: p)).any (fun n => (r.get? n.name).isSome) &&
    (Position.ancestors p).all fun q => !((resolveRoot r root).at? (i :: q)).any deferring

/-- After setting up, an instance is built of an element if its name is known and no plugin above
it defers. -/
theorem isBuilt_resolveNode (n : Node) (p : Position) :
    isBuilt (resolveNode r n) p =
      ((n.at? p).any (fun m => (r.get? m.name).isSome) &&
        (Position.ancestors p).all fun q => !((resolveNode r n).at? q).any deferring) := by
  induction p generalizing n with
  | nil => simp [isBuilt, type_resolveNode, Position.ancestors]
  | cons i p ih =>
    have hdefer : deferring (resolveNode r n) = defers r n.name := by
      rw [deferring, type_resolveNode, defers]
    rw [isBuilt, Position.ancestors, List.all_cons, Tree.at?_nil, Option.any_some, hdefer,
      children_resolveNode, List.all_map]
    cases hd : defers r n.name with
    | true => simp
    | false =>
      have hchild : (resolveNode r n).children[i]? = n.children[i]?.map (resolveNode r) := by
        rw [children_resolveNode, hd]
        exact List.getElem?_map
      have hbelow : ∀ q, (resolveNode r n).at? (i :: q) =
          (n.children[i]?.map (resolveNode r)).bind (·.at? q) := by
        intro q
        rw [Tree.at?_cons, hchild]
      rw [if_neg (by decide), List.getElem?_map, Tree.at?_cons]
      cases hc : n.children[i]? with
      | none => simp
      | some c => simp [ih c, hbelow, hc, Function.comp_def]

/-- After setting up, the elements of which an instance is built are the eligible ones: `isBuilt`
for the children of the root, except for properties blocks. -/
theorem eligible_cons (root : Node) (i : Nat) (p : Position) :
    eligible r root (i :: p) =
      (resolveRoot r root).children[i]?.any fun n => !isPropertiesBlock n && isBuilt n p := by
  have hbelow : ∀ q, (resolveRoot r root).at? (i :: q) =
      (root.children[i]?.map fun n => if isPropertiesBlock n then n else resolveNode r n).bind
        (·.at? q) := by
    intro q
    rw [Tree.at?_cons, children_resolveRoot, List.getElem?_map]
  have hname : ∀ n, isPropertiesBlock (resolveNode r n) = isPropertiesBlock n := by
    rintro ⟨⟩
    rfl
  rw [eligible, children_resolveRoot, List.getElem?_map, Tree.at?_cons]
  simp only [hbelow]
  cases root.children[i]? with
  | none => rfl
  | some n =>
    cases hp : isPropertiesBlock n with
    | true => simp [hp]
    | false => simp [hp, hname, isBuilt_resolveNode]

/-! ### The order of look-ups -/

/-- Whether the plugin type of the element at a position is looked up together with that of the node
that the position starts from: no plugin above it defers. -/
def reaches : Node → Position → Bool
  | _, [] => true
  | n, i :: p => !defers r n.name && n.children[i]?.any (reaches · p)

/-- Whether the plugin type of the element at a position is looked up, given the children of a
root. -/
def reachesAmong (ns : List Node) : Position → Bool
  | [] => false
  | i :: p => ns[i]?.any (reaches r · p)

/-- The elements whose plugin types are looked up, in the order of their positions. -/
def reached (ns : List Node) : List Node :=
  ((Tree.positionsAll ns).filter (reachesAmong r ns)).filterMap (Tree.atAll? ns)

/-- The elements reached from several nodes are those from the first and those from the others. -/
theorem reached_cons (n : Node) (ns : List Node) :
    reached r (n :: ns) = (n.positions.filter (reaches r n)).filterMap n.at? ++ reached r ns := by
  have hnext : (reachesAmong r (n :: ns)) ∘ Position.next = reachesAmong r ns := by
    funext p
    cases p <;> rfl
  have hat : Tree.atAll? (n :: ns) ∘ Position.next = Tree.atAll? ns :=
    funext fun p => Tree.atAll?_cons_next n ns p
  rw [reached, Tree.positionsAll, List.filter_append, List.filter_map, List.filter_map,
    List.filterMap_append, List.filterMap_map, List.filterMap_map, hnext, hat]
  rfl

/-- What is reached from two lists of nodes is reached from one of them. -/
theorem reached_append (ns ms : List Node) :
    reached r (ns ++ ms) = reached r ns ++ reached r ms := by
  induction ns with
  | nil => rfl
  | cons n ns ih => rw [List.cons_append, reached_cons, reached_cons, ih, List.append_assoc]

/-- Below a node the elements are reached that are looked up below it, before the node itself. -/
theorem reached_below (n : Node) :
    (n.positions.filter (reaches r n)).filterMap n.at? = reached r (lookedUpBelow r n) ++ [n] := by
  have hbelow : ((Tree.positionsAll n.children).filter (reaches r n)).filterMap n.at? =
      reached r (lookedUpBelow r n) := by
    unfold lookedUpBelow
    cases hd : defers r n.name with
    | true =>
      have hnone : (Tree.positionsAll n.children).filter (reaches r n) = [] := by
        rw [List.filter_eq_nil_iff]
        intro p hp
        cases p with
        | nil => exact absurd hp (Tree.nil_not_mem_positionsAll n.children)
        | cons i p => simp [reaches, hd]
      rw [hnone]
      rfl
    | false =>
      have hsame : (Tree.positionsAll n.children).filter (reaches r n) =
          (Tree.positionsAll n.children).filter (reachesAmong r n.children) := by
        refine List.filter_congr fun p hp => ?_
        cases p with
        | nil => exact absurd hp (Tree.nil_not_mem_positionsAll n.children)
        | cons i p => simp [reaches, reachesAmong, hd]
      rw [hsame, if_neg (by decide)]
      refine List.filterMap_congr fun p hp => ?_
      cases p with
      | nil => exact absurd (List.mem_filter.1 hp).1 (Tree.nil_not_mem_positionsAll n.children)
      | cons i p => exact Tree.at?_eq_atAll? n i p
  rw [Tree.positions_eq, List.filter_append, List.filterMap_append, hbelow]
  rfl

/-- Level by level, the same elements are looked up as in the order of positions. -/
theorem lookedUp_perm (ns : List Node) : (lookedUp r ns).Perm (reached r ns) := by
  fun_induction lookedUp r ns with
  | case1 => exact .refl _
  | case2 n ns ih =>
    -- the queue has the elements below the node at its end, the positions have them before it
    rw [reached_append] at ih
    rw [reached_cons, reached_below]
    have hcomm : (n :: (reached r ns ++ reached r (lookedUpBelow r n))).Perm
        (n :: (reached r (lookedUpBelow r n) ++ reached r ns)) := List.perm_append_comm.cons n
    have hmiddle : (n :: (reached r (lookedUpBelow r n) ++ reached r ns)).Perm
        (reached r (lookedUpBelow r n) ++ [n] ++ reached r ns) := by
      rw [List.append_assoc]
      exact List.perm_middle.symm
    exact ((ih.cons n).trans hcomm).trans hmiddle

/-- After setting up, these elements have the plugin types of their names, and all others below the
node have the ones that they had. -/
theorem type_at?_resolveNode (n : Node) (p : Position) :
    ((resolveNode r n).at? p).map Node.type =
      (n.at? p).map fun (m : Node) => if reaches r n p then r.get? m.name else m.type := by
  induction p generalizing n with
  | nil => simp [reaches, type_resolveNode]
  | cons i p ih =>
    rw [Tree.at?_cons, Tree.at?_cons, children_resolveNode]
    cases hd : defers r n.name with
    | true => simp [reaches, hd]
    | false =>
      rw [if_neg (by decide), List.getElem?_map]
      cases hc : n.children[i]? with
      | none => rfl
      | some c => simp [reaches, hd, hc, ih c]

end Setup

end Configuration
end ConfigAssembly
