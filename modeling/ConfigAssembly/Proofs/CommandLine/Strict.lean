import ConfigAssembly.CommandLine.Run
import ConfigAssembly.Proofs.Configuration.ErrorRecords

/-!
# What strict runs notice

A run on a file that can be loaded builds a configuration to the end (`Builds`), or it gives no exit
code. Its exit code is then read off the results and, if the run is strict, off the diagnostics
(`execute_of_builds`). The errors that it logs are those of the diagnostics and of the properties
without a name; so a strict run succeeds if no build failed and no errors were logged but those
about properties without a name (`exitCode_strict`), which go unnoticed.
-/

namespace ConfigAssembly

namespace CommandLine

open ConfigAssembly.Text

/-- A run builds a configuration to the end: the plugins of its modules can be registered, its file
can be loaded, its overrides can be read, the configuration is made of these, and the build of no
element hands on a fault. -/
inductive Builds (w : World) (path : String) (i : Invocation) (root : LinkedTree String)
    (c : Configuration) : Prop
  | intro {r : Registry} {overrides : Assoc String String} {log : Log}
    (registered : registerModules w.modules i.modules .empty = .ok r)
    (loaded : loadFile w.files path = .ok root)
    (overridden : parseOverrides (i.overrides.map (·.getD noOverride)) = .ok overrides)
    (made : Configuration.make root.node r.freeze .standard w.environment
      (overrides.map fun (k, v) => (k, .str v)) = (.ok c, log))
    (complete : (c.build none).raised = none)

section

variable {w : World} {path : String} {i : Invocation} {root : LinkedTree String} {c : Configuration}

/-- A run builds one configuration only. -/
theorem Builds.unique {c' : Configuration} (h : Builds w path i root c)
    (h' : Builds w path i root c') : c = c' := by
  obtain ⟨hr, _, ho, hmake, _⟩ := h
  obtain ⟨hr', _, ho', hmake', _⟩ := h'
  rw [hr] at hr'
  rw [ho] at ho'
  cases hr'
  cases ho'
  rw [hmake] at hmake'
  cases hmake'
  rfl

/-- A build that hands on no fault decides how a run ends. -/
theorem buildRoot_of_make {r : Registry} {overrides : Assoc String String} {log : Log}
    (h : Configuration.make root.node r .standard w.environment
      (overrides.map fun (k, v) => (k, .str v)) = (.ok c, log))
    (hraised : (c.build none).raised = none) (strict : Bool) :
    buildRoot w r root overrides strict =
      ⟨.built (succeeded (c.build none).configuration strict),
        ⟨log ++ (c.build none).report.log ++ [summary (c.build none).configuration],
          (c.build none).report.warnings⟩⟩ := by
  unfold buildRoot
  dsimp only
  rw [h]
  dsimp only
  rw [hraised]

/-- A build that hands on a fault gives no exit code. -/
theorem buildRoot_of_raised {r : Registry} {overrides : Assoc String String} {log : Log} {f : Fault}
    (h : Configuration.make root.node r .standard w.environment
      (overrides.map fun (k, v) => (k, .str v)) = (.ok c, log))
    (hraised : (c.build none).raised = some f) (strict : Bool) :
    (buildRoot w r root overrides strict).ending = .failed (.raised f) := by
  unfold buildRoot
  dsimp only
  rw [h]
  dsimp only
  rw [hraised]

/-- Neither does a configuration that cannot be made. -/
theorem buildRoot_of_error {r : Registry} {overrides : Assoc String String} {log : Log} {f : Fault}
    (h : Configuration.make root.node r .standard w.environment
      (overrides.map fun (k, v) => (k, .str v)) = (.error f, log)) (strict : Bool) :
    (buildRoot w r root overrides strict).ending = .failed (.property f) := by
  unfold buildRoot
  dsimp only
  rw [h]

/-- A run on a file that can be loaded builds a configuration to the end, or it gives no exit
code. -/
theorem exists_builds_or_exitCode?_eq_none (i : Invocation)
    (hroot : loadFile w.files path = .ok root) :
    (∃ c, Builds w path i root c) ∨ (execute w (some path) i).ending.exitCode? = none := by
  cases hr : registerModules w.modules i.modules .empty with
  | error e =>
    right
    unfold execute
    rw [hr]
    rfl
  | ok r =>
    cases ho : parseOverrides (i.overrides.map (·.getD noOverride)) with
    | error e =>
      right
      unfold execute buildFile
      simp only [hr, hroot, ho]
      rfl
    | ok overrides =>
      have hending : (execute w (some path) i).ending =
          (buildRoot w r.freeze root overrides i.strict).ending := by
        unfold execute buildFile
        simp only [hr, hroot, ho]
      rcases hmake : Configuration.make root.node r.freeze .standard w.environment
        (overrides.map fun (k, v) => (k, .str v)) with ⟨f | c, log⟩
      · right
        rw [hending, buildRoot_of_error hmake]
        rfl
      · cases hraised : (c.build none).raised with
        | none => exact Or.inl ⟨c, hr, hroot, ho, hmake, hraised⟩
        | some f =>
          right
          rw [hending, buildRoot_of_raised hmake hraised]
          rfl

/-- The exit code of a run is read off the configuration that it builds, and the errors that it logs
are those of making and building it. -/
theorem execute_of_builds (h : Builds w path i root c) :
    (execute w (some path) i).ending = .built (succeeded (c.build none).configuration i.strict) ∧
    (execute w (some path) i).report.log.atLeast .error = namelessRecords root.node ++
      ((c.build none).configuration.diagnostics.filter (·.isError)).map (·.record) := by
  obtain @⟨r, overrides, log, hr, hroot, ho, hmake, hraised⟩ := h
  obtain ⟨lost, hbuild, _, hlost⟩ :=
    Configuration.errorRecords_build hmake VisitorRegistry.quiet_standard none
  rw [hlost hraised, List.append_nil] at hbuild
  have hnames : Log.Quiet [.debug ("Registered plugins: " ++ quotedList r.freeze.names)] := rfl
  have hsummary : Log.Quiet [summary (c.build none).configuration] := rfl
  have hexecute : execute w (some path) i =
      ⟨(buildRoot w r.freeze root overrides i.strict).ending,
        (⟨[.debug ("Registered plugins: " ++ quotedList r.freeze.names)], []⟩ : Report).append
          (buildRoot w r.freeze root overrides i.strict).report⟩ := by
    unfold execute buildFile
    simp only [hr, hroot, ho]
  rw [hexecute, buildRoot_of_make hmake hraised]
  refine ⟨rfl, ?_⟩
  unfold Log.Quiet at hnames hsummary
  unfold Report.append
  rw [Log.atLeast_append, Log.atLeast_append, hnames, hsummary, hbuild, List.nil_append,
    List.append_nil]

end

/-- Whether a configuration counts as a success in a strict run. -/
theorem succeeded_strict_iff (c : Configuration) :
    succeeded c true = true ↔ c.ok = true ∧ c.diagnostics.filter (·.isError) = [] := by
  unfold succeeded
  rw [Bool.and_eq_true, Bool.true_and, Bool.not_eq_true', List.filter_eq_nil_iff,
    List.any_eq_false]

/-- A run that has built ends with zero if it went well. -/
theorem Ending.exitCode?_built_eq_zero (ok : Bool) :
    (built ok).exitCode? = some 0 ↔ ok = true := by
  cases ok <;> decide

/-- If not it ends with one. -/
theorem Ending.exitCode?_built_eq_one (ok : Bool) :
    (built ok).exitCode? = some 1 ↔ ¬ ok = true := by
  cases ok <;> decide

/-- A strict run on a file that can be loaded succeeds if it comes to building a configuration, no
build fails, and no errors are logged but those about properties without a name. -/
theorem exitCode_iff {w : World} {path : String} {i : Invocation} {root : LinkedTree String}
    (hstrict : i.strict = true) (hroot : loadFile w.files path = .ok root) :
    ((execute w (some path) i).ending.exitCode? = some 0 ↔ ∃ c, Builds w path i root c ∧
      (c.build none).configuration.ok = true ∧
      (execute w (some path) i).report.log.atLeast .error = namelessRecords root.node) ∧
    ((execute w (some path) i).ending.exitCode? = some 1 ↔ ∃ c, Builds w path i root c ∧
      ¬ ((c.build none).configuration.ok = true ∧
        (execute w (some path) i).report.log.atLeast .error = namelessRecords root.node)) := by
  rcases exists_builds_or_exitCode?_eq_none i hroot with ⟨c, hbuilds⟩ | hnone
  · obtain ⟨hending, herrors⟩ := execute_of_builds hbuilds
    rw [hstrict] at hending
    -- The run builds one configuration only, so what is said of some configuration is said of it.
    have hunique : ∀ P : Configuration → Prop, (∃ c', Builds w path i root c' ∧ P c') ↔ P c := by
      intro P
      constructor
      · rintro ⟨c', hbuilds', hP⟩
        rwa [hbuilds.unique hbuilds']
      · exact fun hP => ⟨c, hbuilds, hP⟩
    have hsucceeded : succeeded (c.build none).configuration true = true ↔
        (c.build none).configuration.ok = true ∧
        (execute w (some path) i).report.log.atLeast .error = namelessRecords root.node := by
      rw [succeeded_strict_iff, herrors, List.append_right_eq_self, List.map_eq_nil_iff]
    rw [hunique, hunique, hending]
    constructor
    · rw [Ending.exitCode?_built_eq_zero, hsucceeded]
    · rw [Ending.exitCode?_built_eq_one, hsucceeded]
  · -- Without an exit code, no configuration was built.
    have hnever : ∀ P : Configuration → Prop, ¬ ∃ c, Builds w path i root c ∧ P c := by
      rintro P ⟨c, hbuilds, _⟩
      rw [(execute_of_builds hbuilds).1] at hnone
      cases hnone
    rw [hnone]
    constructor
    · exact ⟨nofun, fun h => absurd h (hnever _)⟩
    · exact ⟨nofun, fun h => absurd h (hnever _)⟩

/-- The errors that are logged while a configuration is made and built once are the properties
without a name and then the error-level diagnostics, in their order; at most one more is logged, and
none unless the build hands on a fault. So if it hands on none, they are those of the diagnostics
just if every property has a name. A strict run on a file that can be loaded gives the exit code
zero just if it builds a configuration to the end, no build fails, and no errors are logged but
those about properties without a name; if it builds one to the end otherwise, the exit code is
one. -/
theorem exitCode_strict {root : Node} {registry : Registry} {environment : Assoc String String}
    {overrides : Assoc String Value} {c : Configuration} {log : Log}
    (h : Configuration.make root registry .standard environment overrides = (.ok c, log))
    (event : Option Event) :
    (∃ lost, Log.atLeast (log ++ (c.build event).report.log) .error = namelessRecords root ++
        ((c.build event).configuration.diagnostics.filter (·.isError)).map (·.record) ++ lost ∧
      lost.length ≤ 1 ∧ ((c.build event).raised = none → lost = [])) ∧
    ((c.build event).raised = none →
      ((Log.atLeast (log ++ (c.build event).report.log) .error).map (·.message) =
          ((c.build event).configuration.diagnostics.filter (·.isError)).map (·.message) ↔
        namelessRecords root = [])) ∧
    ∀ (w : World) (path : String) (i : Invocation) (root : LinkedTree String), i.strict = true →
      loadFile w.files path = .ok root →
      ((execute w (some path) i).ending.exitCode? = some 0 ↔ ∃ c, Builds w path i root c ∧
        (c.build none).configuration.ok = true ∧
        (execute w (some path) i).report.log.atLeast .error = namelessRecords root.node) ∧
      ((execute w (some path) i).ending.exitCode? = some 1 ↔ ∃ c, Builds w path i root c ∧
        ¬ ((c.build none).configuration.ok = true ∧
          (execute w (some path) i).report.log.atLeast .error = namelessRecords root.node)) := by
  have hbuild := Configuration.errorRecords_build h VisitorRegistry.quiet_standard event
  refine ⟨hbuild, fun hraised => ?_, fun w path i root => exitCode_iff⟩
  obtain ⟨lost, hbuild, _, hlost⟩ := hbuild
  rw [hbuild, hlost hraised, List.append_nil, List.map_append, List.map_map]
  exact List.append_left_eq_self.trans List.map_eq_nil_iff

/-- A file with one property, which has no name. -/
private def unnamed : World :=
  ⟨⟨[], [(["config.yaml"], "Configuration:\n  Properties:\n    Property:\n      value: x\n")], []⟩,
    [], []⟩

private def strictly : Invocation := ⟨some "config.yaml", [], [], some "info", true, false⟩

/-- The file of the example can be read. -/
private theorem exists_root_unnamed :
    ∃ root, loadFile unnamed.files "config.yaml" = .ok root := by
  have hloaded : (loadFile unnamed.files "config.yaml").toOption.isSome = true := by decide +kernel
  cases hroot : loadFile unnamed.files "config.yaml" with
  | error e =>
    rw [hroot] at hloaded
    cases hloaded
  | ok root => exact ⟨root, rfl⟩

/-- The run on it ends with zero. -/
private theorem exitCode_unnamed :
    (execute unnamed (some "config.yaml") strictly).ending.exitCode? = some 0 := by
  decide +kernel

/-- It comes to a build. -/
private theorem builds_unnamed {root : LinkedTree String}
    (hroot : loadFile unnamed.files "config.yaml" = .ok root) :
    ∃ c, Builds unnamed "config.yaml" strictly root c := by
  refine (exists_builds_or_exitCode?_eq_none strictly hroot).resolve_right ?_
  rw [exitCode_unnamed]
  exact nofun

/-- It records one error. -/
private theorem errorRecords_unnamed :
    (execute unnamed (some "config.yaml") strictly).report.log.atLeast .error =
      [.error "Property without a name in Configuration"] := by
  decide +kernel

/-- The strict run on a file with a property without a name succeeds: its only error is about this
property. -/
theorem exitCode_strict_unnamed :
    ∃ root c registry overrides log, loadFile unnamed.files "config.yaml" = .ok root ∧
      Builds unnamed "config.yaml" strictly root c ∧
      Configuration.make root.node registry .standard [] overrides = (.ok c, log) ∧
      (c.build none).configuration.ok = true ∧
      namelessRecords root.node = [.error "Property without a name in Configuration"] ∧
      Log.atLeast (log ++ (c.build none).report.log) .error = namelessRecords root.node ++
        ((c.build none).configuration.diagnostics.filter (·.isError)).map (·.record) := by
  obtain ⟨root, hroot⟩ := exists_root_unnamed
  obtain ⟨c, hbuilds⟩ := builds_unnamed hroot
  obtain ⟨_, _, _, hmake, hraised⟩ := id hbuilds
  obtain ⟨⟨lost, hrecords, _, hlost⟩, _, hstrict⟩ := exitCode_strict hmake none
  rw [hlost hraised, List.append_nil] at hrecords
  obtain ⟨hzero, _⟩ := hstrict unnamed "config.yaml" strictly root rfl hroot
  obtain ⟨c', hbuilds', hok, herrors⟩ := hzero.1 exitCode_unnamed
  rw [hbuilds'.unique hbuilds] at hok
  refine ⟨root, c, _, _, _, hroot, hbuilds, hmake, hok, ?_, hrecords⟩
  rw [← herrors, errorRecords_unnamed]

/-- The error about this property is in no diagnostic, and the strict run succeeds although it was
logged. -/
theorem not_forall_exitCode_strict :
    (¬ ∀ (root : Node) (registry : Registry) (environment : Assoc String String)
      (overrides : Assoc String Value) (event : Option Event) (c : Configuration) (log : Log),
      Configuration.make root registry .standard environment overrides = (.ok c, log) →
      (c.build event).raised = none →
        (Log.atLeast (log ++ (c.build event).report.log) .error).map (·.message) =
          ((c.build event).configuration.diagnostics.filter (·.isError)).map (·.message)) ∧
    ¬ ∀ (w : World) (path : String) (i : Invocation) (root : LinkedTree String) (c : Configuration),
      i.strict = true → Builds w path i root c →
      ((execute w (some path) i).ending.exitCode? = some 0 ↔
          (c.build none).configuration.ok = true ∧
        (execute w (some path) i).report.log.atLeast .error = []) := by
  obtain ⟨root, hroot⟩ := exists_root_unnamed
  obtain ⟨c, hbuilds⟩ := builds_unnamed hroot
  constructor
  · intro h
    obtain ⟨hending, herrors⟩ := execute_of_builds hbuilds
    obtain ⟨_, _, _, hmake, hraised⟩ := hbuilds
    obtain ⟨lost, hbuild, _, hlost⟩ :=
      Configuration.errorRecords_build hmake VisitorRegistry.quiet_standard none
    rw [hlost hraised, List.append_nil] at hbuild
    have hmessages := h root.node _ _ _ none c _ hmake hraised
    have hexit := exitCode_unnamed
    rw [hending, Ending.exitCode?_built_eq_zero] at hexit
    obtain ⟨_, hnone⟩ := (succeeded_strict_iff _).1 hexit
    rw [hbuild, ← herrors, errorRecords_unnamed, hnone] at hmessages
    cases hmessages
  · intro h
    have hzero := h unnamed "config.yaml" strictly root c rfl hbuilds
    obtain ⟨_, herrors⟩ := hzero.1 exitCode_unnamed
    rw [errorRecords_unnamed] at herrors
    cases herrors

end CommandLine
end ConfigAssembly
