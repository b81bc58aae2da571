import ConfigAssembly.Proofs.Binding.Sequence
import ConfigAssembly.Proofs.Configuration.Locality
import ConfigAssembly.Proofs.Plugin.Registration

/-!
# The plugins in use

Setting up notes plugins of the registry at elements, and nothing else (`InUse.of_resolveRoot`). So
what is asked of the visitors that bind inputs of the plugins in use is known of those that a build
meets (`Bound.ready`).
-/

namespace ConfigAssembly

/-- If no input asks for its element or for the configuration, it is bound by visitors for other
kinds. -/
theorem PluginType.Detached.boundBy {P : Visitor → Prop} {visitors : VisitorRegistry}
    {t : PluginType} (ht : t.Detached)
    (h : ∀ kind d, visitors.find? kind = some d → kind ≠ Origin.node.kind →
      kind ≠ Origin.configuration.kind → P d) : t.BoundBy P visitors where
  builder f b hf hs i hi m hm d hd := by
    obtain ⟨hnode, hconfiguration⟩ := ht.builder f b hf hs i hi m hm
    exact h m.kind d hd hnode hconfiguration
  factory f hf i hi m hm d hd := by
    obtain ⟨hnode, hconfiguration⟩ := ht.factory f hf i hi m hm
    exact h m.kind d hd hnode hconfiguration

/-- A plugin type that a name finds is in the registry. -/
theorem Registry.mem_types_of_get? {r : Registry} {name : String} {t : PluginType}
    (h : r.get? name = some t) : t ∈ r.types.values := by
  have hmem : ∀ {key}, r.types.get? key = some t → t ∈ r.types.values := fun h =>
    List.mem_map_of_mem (f := Prod.snd) (Assoc.mem_of_get? h)
  cases htype : r.types.get? (Text.lower name) with
  | some u =>
    obtain rfl : u = t := Option.some.inj ((get?_of_type htype).symm.trans h)
    exact hmem htype
  | none =>
    rw [get?_of_no_type htype] at h
    obtain ⟨key, _, hkey⟩ := Option.bind_eq_some_iff.1 h
    exact hmem hkey

/-- A walk comes to the tree itself and to what the walks over its children come to. -/
theorem Tree.mem_walk_iff {α σ : Type} {t e : Tree α σ} :
    e ∈ t.walk ↔ e = t ∨ ∃ c ∈ t.children, e ∈ c.walk := by
  rw [walk_eq, walkAll_eq, List.mem_append, List.mem_flatMap, List.mem_singleton, or_comm]

namespace Configuration

/-- A plugin type is in the registry, or it is noted at an element. -/
def InUse (r : Registry) (root : Node) (t : PluginType) : Prop :=
  t ∈ r.types.values ∨ ∃ n ∈ root.walk, Node.type n = some t

section

variable {r : Registry} {t : PluginType}

/-- A type in the registry is in use. -/
theorem InUse.of_get? {name : String} (h : r.get? name = some t) (root : Node) : InUse r root t :=
  .inl (Registry.mem_types_of_get? h)

/-- What a child uses its parent uses. -/
theorem InUse.of_child {n c : Node} (hc : c ∈ n.children) (h : InUse r c t) : InUse r n t := by
  rcases h with h | ⟨m, hm, ht⟩
  · exact .inl h
  · exact .inr ⟨m, Tree.mem_walk_of_mem_children hc hm, ht⟩

/-- At an element whose plugin types are looked up, and below it, only types in use are noted. -/
theorem InUse.of_resolveNode {n m : Node} (hm : m ∈ (resolveNode r n).walk)
    (ht : m.type = some t) : InUse r n t := by
  induction n using Tree.induct generalizing m with
  | h n ih =>
    rcases Tree.mem_walk_iff.1 hm with rfl | ⟨c', hc', hm⟩
    · rw [type_resolveNode] at ht
      exact .of_get? ht n
    · rw [children_resolveNode] at hc'
      split at hc'
      · exact .inr ⟨m, Tree.mem_walk_of_mem_children hc' hm, ht⟩
      · obtain ⟨c, hc, rfl⟩ := List.mem_map.1 hc'
        exact .of_child hc (ih c hc hm ht)

/-- After setting up only types in use are noted. -/
theorem InUse.of_resolveRoot {root m : Node} (hm : m ∈ (resolveRoot r root).walk)
    (ht : m.type = some t) : InUse r root t := by
  rcases Tree.mem_walk_iff.1 hm with rfl | ⟨c', hc', hm⟩
  · rw [resolveRoot_eq] at ht
    rcases Option.or_eq_some_iff.1 ht with ht | ⟨_, ht⟩
    · exact .of_get? ht root
    · exact .inr ⟨root, root.mem_walk_self, ht⟩
  · rw [children_resolveRoot] at hc'
    obtain ⟨c, hc, rfl⟩ := List.mem_map.1 hc'
    split at hm
    · exact .inr ⟨m, Tree.mem_walk_of_mem_children hc hm, ht⟩
    · exact .of_child hc (.of_resolveNode hm ht)

/-- The visitors that bind inputs of the plugins noted at elements have a property. -/
def Bound (P : Visitor → Prop) (visitors : VisitorRegistry) (n : Node) : Prop :=
  ∀ m ∈ n.walk, ∀ t, Node.type m = some t → t.BoundBy P visitors

variable {P : Visitor → Prop} {visitors : VisitorRegistry}

/-- The type of the node is bound. -/
theorem Bound.type {n : Node} (h : Bound P visitors n) (ht : n.type = some t) :
    t.BoundBy P visitors := h n n.mem_walk_self t ht

/-- So are those of its children. -/
theorem Bound.child {n c : Node} (h : Bound P visitors n) (hc : c ∈ n.children) :
    Bound P visitors c := fun m hm => h m (Tree.mem_walk_of_mem_children hc hm)

/-- If the types in use are bound, so are those of the root that is ready. -/
theorem Bound.ready {c : Configuration}
    (h : ∀ t, InUse c.registry c.root t → t.BoundBy P c.visitors) :
    Bound P c.visitors c.ready.root := by
  unfold Configuration.ready
  split
  · exact fun m hm t ht => h t (.inr ⟨m, hm, ht⟩)
  · exact fun m hm t ht => h t (.of_resolveRoot hm ht)

end

end Configuration
end ConfigAssembly
