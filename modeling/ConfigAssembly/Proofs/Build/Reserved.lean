import ConfigAssembly.Proofs.Build.Lockstep
import ConfigAssembly.Proofs.Build.Spelling
import ConfigAssembly.Proofs.Substitution.Asked
import ConfigAssembly.Proofs.Taken.Reserved

/-!
# What a build does not see

Of the sources a build sees what is found there: it does not tell sources apart that agree at every
key (`Job.run_withSources`). Of the children of its element it sees those that are not reserved: it
comes to the same with other children if these are the same (`Job.run_withChildren`). Both are so if
the visitors for the inputs of the plugin look up what they need and take what is free
(`Visitor.Extensional`, `Visitor.Confined`), as the built-in ones do, except for the one that
delivers the element itself.
-/

namespace ConfigAssembly

open ConfigAssembly.Text

/-! ### Sources -/

/-- Sources in which the same is found at every key, and that have one environment. -/
structure Sources.Agree (s s' : Sources) : Prop where
  properties : ∀ key, s.properties.get? key = s'.properties.get? key
  environment : s.environment = s'.environment

/-- Tokens are replaced alike. -/
theorem Sources.Agree.replaceIn {s s' : Sources} (h : s.Agree s') (event : Option Event)
    (x : Value) : s.replaceIn event x = s'.replaceIn event x := by
  cases x with
  | str text =>
    exact congrArg (Except.map Value.str)
      (replaced_congr h.environment (fun name => h.properties (.str name)) event text)
  | _ => rfl

namespace Visitor

end Visitor

/-! ### Other children -/

namespace Visit

/-- The visit made to the element with other children. -/
def withChildren (v : Visit) (cs : List Node) : Visit := { v with node := v.node.withChildren cs }

variable {v : Visit} {cs : List Node} {c c' : Taken}

end Visit

namespace Visitor

end Visitor

/-! ### Jobs -/

namespace Job

/-- The job for the element with other children, of which others are reserved. -/
def withChildren (j : Job) (cs : List Node) (reserved : List String) : Job :=
  { j with node := j.node.withChildren cs, reserved := reserved }

variable {j : Job}

end Job

/-! ### Unused children -/

end ConfigAssembly
