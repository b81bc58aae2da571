import ConfigAssembly.Proofs.Binding.Sequence
import ConfigAssembly.Proofs.Build.Attempt

/-!
# The errors that a build logs

A diagnostic is logged when it is made, and nothing else that a build logs is an error: a log
mirrors diagnostics if its error records are those of the diagnostics that report errors, in their
order (`Log.Mirrors`). Visitors that log no errors (`Visitor.Quiet`), as the built-in ones
(`VisitorRegistry.quiet_standard`), make bindings that log none, and so what an attempt logs mirrors
its diagnostics, and what a build logs mirrors those of its result (`Job.mirrors_run`). A build that
hands on a fault has no result, and one error at most is logged without being in one
(`Job.length_errors_of_run_error`).
-/

namespace ConfigAssembly

namespace Log

/-- No record of a log reports an error. -/
def Quiet (log : Log) : Prop := log.atLeast .error = []

/-- The error records of a log are those of the diagnostics that report errors, in their order. -/
def Mirrors (log : Log) (ds : List Diagnostic) : Prop :=
  log.atLeast .error = (ds.filter (·.isError)).map (·.record)

/-- Records are chosen one by one. -/
theorem atLeast_append (a b : Log) (s : Severity) :
    Log.atLeast (a ++ b) s = a.atLeast s ++ b.atLeast s := by
  unfold Log.atLeast
  exact List.filter_append _ _

/-- An empty log reports no errors. -/
theorem quiet_nil : Quiet [] := rfl

/-- A record for those who look for errors is none itself. -/
theorem quiet_debug (message : String) : Quiet [.debug message] := rfl

/-- Logs without errors are put together to one. -/
theorem Quiet.append {a b : Log} (ha : a.Quiet) (hb : b.Quiet) : Quiet (a ++ b) := by
  unfold Quiet at *
  rw [atLeast_append, ha, hb]
  rfl

/-- A log without errors mirrors no diagnostics. -/
theorem Quiet.mirrors {log : Log} (h : log.Quiet) : log.Mirrors [] := h

/-- What is logged and what is diagnosed may be put together. -/
theorem Mirrors.append {a b : Log} {ds es : List Diagnostic} (ha : a.Mirrors ds)
    (hb : b.Mirrors es) : Mirrors (a ++ b) (ds ++ es) := by
  unfold Mirrors at *
  rw [atLeast_append, ha, hb, List.filter_append, List.map_append]

/-- Records that report no errors may come before. -/
theorem Mirrors.after {log : Log} {ds : List Diagnostic} (h : log.Mirrors ds) {before : Log}
    (hbefore : before.Quiet) : Mirrors (before ++ log) ds :=
  hbefore.mirrors.append h

/-- The same for what is logged and diagnosed about each of several things. -/
theorem Mirrors.flatMap {α : Type} {f : α → Log} {g : α → List Diagnostic} {xs : List α}
    (h : ∀ x ∈ xs, (f x).Mirrors (g x)) : Mirrors (xs.flatMap f) (xs.flatMap g) := by
  induction xs with
  | nil => exact quiet_nil.mirrors
  | cons x xs ih =>
    rw [List.flatMap_cons, List.flatMap_cons]
    have hx := h x List.mem_cons_self
    exact hx.append (ih fun y hy => h y (List.mem_cons_of_mem x hy))

/-- The records of diagnostics mirror them. -/
theorem mirrors_records (ds : List Diagnostic) : Mirrors (ds.map (·.record)) ds := by
  have hseverity : ∀ d : Diagnostic,
      decide (Severity.error.rank ≤ d.record.severity.rank) = d.isError := by
    rintro ⟨kind, message, element⟩
    cases kind <;> rfl
  unfold Mirrors atLeast
  rw [List.filter_map]
  congr 1
  exact List.filter_congr fun d _ => hseverity d

end Log

/-! ### Visitors -/

/-- A visitor logs no errors. -/
def Visitor.Quiet (d : Visitor) : Prop := ∀ v c, (d.visit v c).log.Quiet

/-- The visitors of a registry log no errors. -/
def VisitorRegistry.Quiet (r : VisitorRegistry) : Prop := ∀ kind d, r.find? kind = some d → d.Quiet

namespace Visitor

/-- The visitor of attributes logs its trace. -/
theorem quiet_ofAttribute : ofAttribute.Quiet := by
  intro v c
  unfold ofAttribute
  dsimp only
  rcases v.takeAttribute c with ⟨e | found, c'⟩
  · exact Log.quiet_nil
  · dsimp only
    cases v.configured found with
    | error e => exact Log.quiet_nil
    | ok x =>
      cases v.need "sensitive" v.marker.sensitive? with
      | error e => exact Log.quiet_nil
      | ok sensitive =>
        dsimp only
        cases v.demand x (.missingAttribute v.node.name v.marker.shownName) with
        | error e => exact Log.quiet_debug _
        | ok => exact Log.quiet_debug _

/-- The visitor of elements logs its trace. -/
theorem quiet_ofElement : ofElement.Quiet := by
  intro v c
  unfold ofElement
  dsimp only
  rcases v.takeChildren c (!takesAll v.type) with ⟨e | found, c'⟩
  · exact Log.quiet_nil
  · dsimp only
    split
    · exact Log.quiet_nil
    · exact Log.quiet_nil
    · exact Log.quiet_debug _

/-- The visitor of texts logs nothing. -/
theorem quiet_ofText : ofText.Quiet := by
  intro v c
  unfold ofText
  dsimp only
  split
  · exact Log.quiet_nil
  · split
    · exact Log.quiet_nil
    · exact Log.quiet_nil

/-- The visitor of nodes logs nothing. -/
theorem quiet_ofNode : ofNode.Quiet := fun _ _ => Log.quiet_nil

/-- The visitor of configurations logs nothing. -/
theorem quiet_ofConfiguration : ofConfiguration.Quiet := fun _ _ => Log.quiet_nil

end Visitor

/-- The built-in visitors log no errors. -/
theorem VisitorRegistry.quiet_standard : standard.Quiet := by
  intro kind d hd
  have hmem := (eq_of_find?_standard hd).2
  simp only [List.mem_cons, List.not_mem_nil, or_false] at hmem
  rcases hmem with rfl | rfl | rfl | rfl | rfl
  · exact Visitor.quiet_ofAttribute
  · exact Visitor.quiet_ofElement
  · exact Visitor.quiet_ofText
  · exact Visitor.quiet_ofNode
  · exact Visitor.quiet_ofConfiguration

/-! ### Bindings -/

/-- Steps without error records have none together. -/
theorem Outcome.quiet_bind {α β : Type} {o : Outcome α} {k : α → Taken → Outcome β}
    (ho : o.log.Quiet) (hk : ∀ x c, (k x c).log.Quiet) : (o.bind k).log.Quiet := by
  rcases o with ⟨e | x, c, log⟩
  · exact ho
  · exact ho.append (hk x c)

namespace Binder

variable {b : Binder}

/-- Visiting markers logs no errors. -/
theorem quiet_resolveFrom (h : b.visitors.Quiet) (i : Input) (ms : List Marker)
    (last : Option Value) (c : Taken) : (b.resolveFrom i ms last c).log.Quiet := by
  induction ms generalizing last c with
  | nil => exact Log.quiet_nil
  | cons m ms ih =>
    cases hd : b.visitors.find? m.kind with
    | none =>
      rw [resolveFrom_cons_of_none hd]
      exact ih last c
    | some d =>
      rw [resolveFrom_cons_of_some hd]
      have hvisit : (d.visit (b.occasion i m) c).log.Quiet := h m.kind d hd _ c
      exact Outcome.quiet_bind hvisit fun x c => ih (some x) c

/-- Setting fields logs no errors. -/
theorem quiet_inject (h : b.visitors.Quiet) (is : List Input) (fields : Fields) (c : Taken) :
    (b.inject is fields c).log.Quiet := by
  induction is generalizing fields c with
  | nil => exact Log.quiet_nil
  | cons i is ih =>
    rw [inject_cons]
    exact Outcome.quiet_bind (quiet_resolveFrom h i _ _ c) fun x c => ih _ c

/-- Finding values logs no errors. -/
theorem quiet_values (h : b.visitors.Quiet) (is : List Input) (c : Taken) :
    (b.values is c).log.Quiet := by
  induction is generalizing c with
  | nil => exact Log.quiet_nil
  | cons i is ih =>
    rw [values_cons]
    refine Outcome.quiet_bind (quiet_resolveFrom h i _ _ c) fun x c => ?_
    exact Outcome.quiet_bind (ih c) fun _ _ => Log.quiet_nil

/-- Collecting arguments logs no errors. -/
theorem quiet_arguments (h : b.visitors.Quiet) (is : List Input) (c : Taken) :
    (b.arguments is c).log.Quiet := by
  rw [arguments_eq]
  exact Outcome.quiet_bind (quiet_values h is c) fun _ _ => Log.quiet_debug _

end Binder

/-! ### Attempts and builds -/

/-- What the bindings of an attempt log. -/
def Attempt.log : Attempt → Log
  | .absent | .declined => []
  | .failed _ log | .done _ _ log => log

/-- The bindings of an attempt log what finding the values does. -/
theorem Attempt.log_ofOutcome {α : Type} (o : Outcome α) (make : α → Except Fault Value)
    (leftovers : Taken → List Diagnostic) : (ofOutcome o make leftovers).log = o.log := by
  rcases o with ⟨e | x, c, log⟩
  · rfl
  · unfold ofOutcome
    dsimp only
    cases make x with
    | error f => rfl
    | ok y => rfl

namespace Job

variable {j : Job}

/-- The bindings of an attempt by a builder log no errors. -/
theorem quiet_attemptBuilder (h : j.visitors.Quiet) : j.attemptBuilder.log.Quiet := by
  cases hf : j.type.strategy.builderFactory with
  | none =>
    rw [attemptBuilder_of_absent hf]
    exact Log.quiet_nil
  | some f =>
    rcases hs : f.start with e | _ | b
    · rw [attemptBuilder_of_unopened hf hs]
      exact Log.quiet_nil
    · rw [attemptBuilder_of_declined hf hs]
      exact Log.quiet_nil
    · rw [attemptBuilder_of_opened hf hs, runBuilder_eq, Attempt.log_ofOutcome]
      exact Binder.quiet_inject h _ _ _

/-- The bindings of an attempt by a factory log no errors. -/
theorem quiet_attemptFactory (h : j.visitors.Quiet) : j.attemptFactory.log.Quiet := by
  cases hf : j.type.strategy.factory with
  | none =>
    rw [attemptFactory_of_absent hf]
    exact Log.quiet_nil
  | some f =>
    rw [attemptFactory_eq hf, Attempt.log_ofOutcome]
    exact Binder.quiet_arguments h _ _

/-- What an attempt logs mirrors its diagnostics if its bindings log no errors. -/
theorem mirrors_attempt (j : Job) (kind : EntryKind) {a : Attempt} (h : a.log.Quiet) :
    (j.records kind a).Mirrors (j.diagnostics kind a) := by
  cases a with
  | absent => exact Log.mirrors_records [j.miss kind]
  | declined => exact (Log.quiet_debug _).mirrors
  | failed message log =>
    cases message with
    | error f => exact h.mirrors
    | ok message =>
      have htrace : Log.Quiet
          [⟨.debug, "Exception raised while building " ++ j.node.name, true⟩] := rfl
      exact ((Log.mirrors_records [j.failure kind message]).after htrace).after h
  | done x leftovers log => exact (Log.mirrors_records leftovers).after h

/-- The bindings of each attempt that a build makes log no errors. -/
theorem quiet_attempts (h : j.visitors.Quiet) : ∀ a ∈ j.attempts, a.2.log.Quiet := by
  intro a ha
  rcases List.mem_cons.1 ha with rfl | ha
  · exact quiet_attemptBuilder h
  · split at ha
    · rw [List.mem_singleton.1 ha]
      exact quiet_attemptFactory h
    · cases ha

/-- What a build logs mirrors the diagnostics of its attempts. -/
theorem mirrors_attempts (h : j.visitors.Quiet) :
    j.run.2.Mirrors (j.attempts.flatMap fun a => j.diagnostics a.1 a.2) := by
  rw [j.run_reports.1]
  exact Log.Mirrors.flatMap fun a ha => j.mirrors_attempt a.1 (quiet_attempts h a ha)

/-- What a build logs mirrors the diagnostics of its result. -/
theorem mirrors_run (h : j.visitors.Quiet) {r : BuildResult} (hr : j.run.1 = .ok r) :
    j.run.2.Mirrors r.diagnostics := by
  rw [diagnostics_of_run hr]
  exact mirrors_attempts h

/-- An attempt that is followed by another one has one diagnostic at most. -/
theorem length_diagnostics_of_goesOn {a : Attempt} (h : goesOn a = true) (kind : EntryKind) :
    (j.diagnostics kind a).length ≤ 1 := by
  rcases a with _ | _ | ⟨_ | _, _⟩ | _
  · exact Nat.le_refl 1
  · exact Nat.zero_le 1
  · cases h
  · exact Nat.le_refl 1
  · cases h

/-- An attempt that hands on a fault has no diagnostics. -/
theorem diagnostics_of_raised {a : Attempt} {f : Fault} (h : raised? a = some f)
    (kind : EntryKind) : j.diagnostics kind a = [] := by
  rcases a with _ | _ | ⟨_ | _, _⟩ | _
  · cases h
  · cases h
  · rfl
  · cases h
  · cases h

/-- A build that hands on a fault logs one error at most: that of an attempt by a builder that
failed before the attempt by the factory did. -/
theorem length_errors_of_run_error (h : j.visitors.Quiet) {f : Fault} (hf : j.run.1 = .error f) :
    (j.run.2.atLeast .error).length ≤ 1 := by
  have hmirrors := mirrors_attempts h
  unfold Log.Mirrors at hmirrors
  rw [hmirrors, List.length_map]
  refine Nat.le_trans (List.length_filter_le _ _) ?_
  rw [run_eq_error_iff] at hf
  unfold raisedBy attempts at hf
  unfold attempts
  cases hg : goesOn j.attemptBuilder with
  | false =>
    rw [hg] at hf
    have hraised : raised? j.attemptBuilder = some f := by simpa using hf
    simp [diagnostics_of_raised hraised]
  | true =>
    rw [hg] at hf
    have hbuilder : raised? j.attemptBuilder = none := by
      simpa using (Bool.and_eq_true_iff.1 hg).1
    have hfactory : raised? j.attemptFactory = some f := by simpa [hbuilder] using hf
    simpa [diagnostics_of_raised hfactory] using length_diagnostics_of_goesOn hg .builderFactory

end Job
end ConfigAssembly
