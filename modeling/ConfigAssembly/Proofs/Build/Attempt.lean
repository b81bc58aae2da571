import ConfigAssembly.Build

/-!
# The attempts of a build

A build makes one attempt or two, and what it reports is what they report (`Job.run_reports`). It
hands on a fault just if one of them failed with a fault that has no text (`Job.run_eq_error_iff`).
Either attempt binds values and then makes an instance of them (`Attempt.ofOutcome`), once its entry
point is at hand (`Job.attemptBuilder_of_opened`, `Job.attemptFactory_eq`). So the attempts of two
jobs of one plugin type are compared by what they bind (`Job.rel_attemptBuilder`,
`Job.rel_attemptFactory`).
-/

namespace ConfigAssembly

/-- The attempt that binds values and makes an instance of them. -/
def Attempt.ofOutcome {α : Type} (o : Outcome α) (make : α → Except Fault Value)
    (leftovers : Taken → List Diagnostic) : Attempt :=
  match o with
  | ⟨.error e, _, log⟩ => .failed e.message log
  | ⟨.ok x, c, log⟩ =>
    match make x with
    | .error f => .failed f.text log
    | .ok y => .done y (leftovers c) log

namespace Attempt

variable {α : Type} {o : Outcome α} {make : α → Except Fault Value}
  {leftovers : Taken → List Diagnostic}

/-- Without values the attempt fails. -/
theorem ofOutcome_of_error {e : InputError} (h : o.result = .error e) :
    ofOutcome o make leftovers = .failed e.message o.log := by
  obtain ⟨r, c, log⟩ := o
  obtain rfl : r = .error e := h
  rfl

/-- The attempt fails if no instance can be made of the values. -/
theorem ofOutcome_of_fault {x : α} {e : Fault} (h : o.result = .ok x) (hm : make x = .error e) :
    ofOutcome o make leftovers = .failed e.text o.log := by
  obtain ⟨r, c, log⟩ := o
  obtain rfl : r = .ok x := h
  rw [ofOutcome, hm]

/-- Otherwise the attempt goes through. -/
theorem ofOutcome_of_ok {x : α} {y : Value} (h : o.result = .ok x) (hm : make x = .ok y) :
    ofOutcome o make leftovers = .done y (leftovers o.taken) o.log := by
  obtain ⟨r, c, log⟩ := o
  obtain rfl : r = .ok x := h
  rw [ofOutcome, hm]

end Attempt

namespace Job

/-- An attempt is followed by another one: it delivered nothing, and if it failed this was put into
words. -/
def goesOn (a : Attempt) : Bool := (raised? a).isNone && (delivered? a).isNone

/-- The attempts that a build makes, with their kinds. -/
def attempts (j : Job) : List (EntryKind × Attempt) :=
  (.builderFactory, j.attemptBuilder) ::
    if goesOn j.attemptBuilder then [(.factory, j.attemptFactory)] else []

/-- The fault that the attempts of a build hand on, if one does. -/
def raisedBy (as : List (EntryKind × Attempt)) : Option Fault := as.findSome? (raised? ·.2)

/-- An attempt hands on a fault, or delivers, or neither. -/
theorem attempt_cases (a : Attempt) :
    (∃ f, raised? a = some f) ∨ raised? a = none ∧ (∃ x, delivered? a = some x) ∨
      raised? a = none ∧ delivered? a = none := by
  rcases a with _ | _ | ⟨_ | _, log⟩ | ⟨x, leftovers, log⟩
  · exact Or.inr (Or.inr ⟨rfl, rfl⟩)
  · exact Or.inr (Or.inr ⟨rfl, rfl⟩)
  · exact Or.inl ⟨_, rfl⟩
  · exact Or.inr (Or.inr ⟨rfl, rfl⟩)
  · exact Or.inr (Or.inl ⟨rfl, x, rfl⟩)

/-- What a build reports is what its attempts report, unless one of them hands on a fault. -/
theorem run_reports (j : Job) :
    j.run.2 = j.attempts.flatMap (fun a => j.records a.1 a.2) ∧
      j.run.1.map (·.diagnostics) = match raisedBy j.attempts with
        | some f => .error f
        | none => .ok (j.attempts.flatMap fun a => j.diagnostics a.1 a.2) := by
  unfold run attempts raisedBy goesOn
  rcases attempt_cases j.attemptBuilder with ⟨f, hr⟩ | ⟨hr, x, hd⟩ | ⟨hr, hd⟩
  · simp [hr, Except.map]
  · simp [hr, hd, BuildResult.through, Except.map]
  · rcases attempt_cases j.attemptFactory with ⟨f, hr'⟩ | ⟨hr', x, hd'⟩ | ⟨hr', hd'⟩
    · simp [hr, hd, hr', Except.map]
    · simp [hr, hd, hr', hd', BuildResult.through, Except.map]
    · simp [hr, hd, hr', hd', BuildResult.failure, Except.map]

/-- A build hands on what one of its attempts does. -/
theorem run_eq_error_iff {j : Job} {f : Fault} :
    j.run.1 = .error f ↔ raisedBy j.attempts = some f := by
  have hreports := (run_reports j).2
  constructor
  · intro h
    rw [h] at hreports
    cases hr : raisedBy j.attempts with
    | none => rw [hr] at hreports; cases hreports
    | some f' => rw [hr] at hreports; rw [Except.error.inj hreports]
  · intro h
    rw [h] at hreports
    cases hj : j.run.1 with
    | ok r => rw [hj] at hreports; cases hreports
    | error f' => rw [hj] at hreports; rw [Except.error.inj hreports]

/-- The diagnostics of a result are those of the attempts. -/
theorem diagnostics_of_run {j : Job} {r : BuildResult} (h : j.run.1 = .ok r) :
    r.diagnostics = j.attempts.flatMap fun a => j.diagnostics a.1 a.2 := by
  have hreports := (run_reports j).2
  rw [h] at hreports
  cases hr : raisedBy j.attempts with
  | none => rw [hr] at hreports; exact Except.ok.inj hreports
  | some f => rw [hr] at hreports; cases hreports

/-- A builder binds its fields and finishes. -/
theorem runBuilder_eq (j : Job) (b : BuilderClass) :
    j.runBuilder b =
      .ofOutcome (j.binder.inject b.inputs b.initial j.taken) b.finish j.leftovers := by
  unfold runBuilder
  rcases j.binder.inject b.inputs b.initial j.taken with ⟨_ | _, _, _⟩ <;> rfl

/-- A plugin without a factory does not offer this way. -/
theorem attemptFactory_of_absent {j : Job} (h : j.type.strategy.factory = none) :
    j.attemptFactory = .absent := by
  rw [attemptFactory, h]

/-- A factory binds its parameters and creates. -/
theorem attemptFactory_eq {j : Job} {f : Factory} (h : j.type.strategy.factory = some f) :
    j.attemptFactory =
      .ofOutcome (j.binder.arguments f.inputs j.taken) f.create j.leftovers := by
  unfold attemptFactory
  rw [h]
  dsimp only
  rcases j.binder.arguments f.inputs j.taken with ⟨_ | _, _, _⟩ <;> rfl

section Builder

variable {j : Job} {f : BuilderFactory}

/-- A plugin without a builder does not offer this way. -/
theorem attemptBuilder_of_absent (h : j.type.strategy.builderFactory = none) :
    j.attemptBuilder = .absent := by
  rw [attemptBuilder, h]

/-- A plugin may give no builder. -/
theorem attemptBuilder_of_declined (hf : j.type.strategy.builderFactory = some f)
    (h : f.start = .ok none) : j.attemptBuilder = .declined := by
  rw [attemptBuilder, hf]
  dsimp only
  rw [h]

/-- Giving a builder may fail. -/
theorem attemptBuilder_of_unopened (hf : j.type.strategy.builderFactory = some f) {e : Fault}
    (h : f.start = .error e) : j.attemptBuilder = .failed e.text [] := by
  rw [attemptBuilder, hf]
  dsimp only
  rw [h]

/-- A builder that is given is run. -/
theorem attemptBuilder_of_opened (hf : j.type.strategy.builderFactory = some f) {b : BuilderClass}
    (h : f.start = .ok (some b)) : j.attemptBuilder = j.runBuilder b := by
  rw [attemptBuilder, hf]
  dsimp only
  rw [h]

end Builder

/-! ### Two jobs of one plugin type -/

section Related

variable {R : Attempt → Attempt → Prop} {j j' : Job}

/-- Attempts by a builder are related if they are once a builder is opened. -/
theorem rel_attemptBuilder (hrefl : ∀ a, R a a) (htype : j.type = j'.type)
    (h : ∀ f b, j.type.strategy.builderFactory = some f → f.start = .ok (some b) →
      R (.ofOutcome (j.binder.inject b.inputs b.initial j.taken) b.finish j.leftovers)
        (.ofOutcome (j'.binder.inject b.inputs b.initial j'.taken) b.finish j'.leftovers)) :
    R j.attemptBuilder j'.attemptBuilder := by
  cases hf : j.type.strategy.builderFactory with
  | none =>
    rw [attemptBuilder_of_absent hf, attemptBuilder_of_absent (htype ▸ hf)]
    exact hrefl _
  | some f =>
    have hf' : j'.type.strategy.builderFactory = some f := htype ▸ hf
    rcases hs : f.start with e | _ | b
    · rw [attemptBuilder_of_unopened hf hs, attemptBuilder_of_unopened hf' hs]
      exact hrefl _
    · rw [attemptBuilder_of_declined hf hs, attemptBuilder_of_declined hf' hs]
      exact hrefl _
    · rw [attemptBuilder_of_opened hf hs, attemptBuilder_of_opened hf' hs, runBuilder_eq,
        runBuilder_eq]
      exact h f b hf hs

/-- Attempts by a factory are related if they are where the plugin has one. -/
theorem rel_attemptFactory (hrefl : ∀ a, R a a) (htype : j.type = j'.type)
    (h : ∀ f, j.type.strategy.factory = some f →
      R (.ofOutcome (j.binder.arguments f.inputs j.taken) f.create j.leftovers)
        (.ofOutcome (j'.binder.arguments f.inputs j'.taken) f.create j'.leftovers)) :
    R j.attemptFactory j'.attemptFactory := by
  cases hf : j.type.strategy.factory with
  | none =>
    rw [attemptFactory_of_absent hf, attemptFactory_of_absent (htype ▸ hf)]
    exact hrefl _
  | some f =>
    rw [attemptFactory_eq hf, attemptFactory_eq (htype ▸ hf)]
    exact h f hf

end Related
end Job
end ConfigAssembly
