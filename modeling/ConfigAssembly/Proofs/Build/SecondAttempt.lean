import ConfigAssembly.Proofs.Binding.Sequence
import ConfigAssembly.Proofs.Build.Attempt

/-!
# The second attempt begins afresh

When the attempt of a builder factory comes to nothing, the factory is tried. `ComesToNothing` lists
the points at which the first attempt may stop: the builder factory opens no builder or fails, an
input has an error after all before it were bound, or the builder fails to make the instance. These
are all (`exists_comesToNothing_iff`). If what it stops with has a text, the build goes on as that
of the plugin type without its builder factory, except for the diagnostic about the first attempt;
otherwise there is no second attempt, and what forming the text fails with is handed on
(`run_withoutBuilder`).
-/

namespace ConfigAssembly.Job

/-- The same job for the plugin type without its builder factory. -/
def withoutBuilder (j : Job) : Job :=
  { j with type := { j.type with strategy := { j.type.strategy with builderFactory := none } } }

/-- The attempt of a builder factory comes to nothing, and with which message if it fails, or with
what forming the message fails. -/
inductive ComesToNothing (j : Job) (f : BuilderFactory) : Option (Except Fault String) → Prop
  /-- No builder is opened. -/
  | declined (h : f.start = .ok none) : ComesToNothing j f none
  /-- Opening a builder fails. -/
  | unopened {e : Fault} (h : f.start = .error e) : ComesToNothing j f (some e.text)
  /-- An input has an error after those before it were bound. -/
  | unbound {b : BuilderClass} {before after : List Input} {i : Input} {fields : Fields}
    {e : InputError} (h : f.start = .ok (some b)) (hinputs : b.inputs = before ++ i :: after)
    (hbefore : (j.binder.inject before b.initial j.taken).result = .ok fields)
    (he : (j.binder.resolve i (j.binder.inject before b.initial j.taken).taken).result = .error e) :
    ComesToNothing j f (some e.message)
  /-- All inputs are bound, and making the instance fails. -/
  | unbuilt {b : BuilderClass} {fields : Fields} {e : Fault} (h : f.start = .ok (some b))
    (hfields : (j.binder.inject b.inputs b.initial j.taken).result = .ok fields)
    (he : b.finish fields = .error e) : ComesToNothing j f (some e.text)

/-! ### The first attempt -/

section First

variable {j : Job} {f : BuilderFactory}

/-- An attempt that comes to nothing was declined, or failed with its message. -/
theorem attemptBuilder_of_comesToNothing (hf : j.type.strategy.builderFactory = some f)
    {message : Option (Except Fault String)} (h : j.ComesToNothing f message) :
    (message = none ∧ j.attemptBuilder = .declined) ∨
      ∃ m log, message = some m ∧ j.attemptBuilder = .failed m log := by
  cases h with
  | declined h => exact Or.inl ⟨rfl, attemptBuilder_of_declined hf h⟩
  | unopened h => exact Or.inr ⟨_, [], rfl, attemptBuilder_of_unopened hf h⟩
  | unbound h hinputs hbefore he =>
    have hinject := Binder.inject_eq_error_iff.2 ⟨_, _, _, _, hinputs, hbefore, he⟩
    rw [attemptBuilder_of_opened hf h, runBuilder_eq, Attempt.ofOutcome_of_error hinject]
    exact Or.inr ⟨_, _, rfl, rfl⟩
  | unbuilt h hfields he =>
    rw [attemptBuilder_of_opened hf h, runBuilder_eq, Attempt.ofOutcome_of_fault hfields he]
    exact Or.inr ⟨_, _, rfl, rfl⟩

/-- The attempt of a builder factory delivers no instance just when it stops at one of the listed
points. -/
theorem exists_comesToNothing_iff (hf : j.type.strategy.builderFactory = some f) :
    (∃ message, j.ComesToNothing f message) ↔ delivered? j.attemptBuilder = none := by
  constructor
  · rintro ⟨message, h⟩
    rcases attemptBuilder_of_comesToNothing hf h with ⟨_, ha⟩ | ⟨m, log, _, ha⟩ <;> rw [ha] <;> rfl
  · intro h
    cases hstart : f.start with
    | error e => exact ⟨_, .unopened hstart⟩
    | ok b? =>
      cases b? with
      | none => exact ⟨_, .declined hstart⟩
      | some b =>
        rw [attemptBuilder_of_opened hf hstart, runBuilder_eq] at h
        cases hinject : (j.binder.inject b.inputs b.initial j.taken).result with
        | error e =>
          obtain ⟨before, i, after, fields, hinputs, hbefore, he⟩ :=
            Binder.inject_eq_error_iff.1 hinject
          exact ⟨_, .unbound hstart hinputs hbefore he⟩
        | ok fields =>
          cases hfinish : b.finish fields with
          | error e => exact ⟨_, .unbuilt hstart hinject hfinish⟩
          | ok x =>
            rw [Attempt.ofOutcome_of_ok hinject hfinish] at h
            cases h

/-- There is no message just when no builder was opened. -/
theorem ComesToNothing.message_eq_none_iff {message : Option (Except Fault String)}
    (h : j.ComesToNothing f message) : message = none ↔ f.start = .ok none := by
  cases h <;> simp_all

end First

/-! ### The second attempt -/

/-- What the second attempt makes of a build, after the diagnostics of the first. -/
def second (j : Job) (first : List Diagnostic) : Except Fault BuildResult :=
  let diagnostics := first ++ j.diagnostics .factory j.attemptFactory
  match raised? j.attemptFactory, delivered? j.attemptFactory with
  | some f, _ => .error f
  | none, some x => .ok (.through x .factory diagnostics)
  | none, none => .ok (.failure diagnostics)

/-- When the first attempt goes on to the second, the build is what this one makes of it. -/
theorem run_of_goesOn {j : Job} (h : goesOn j.attemptBuilder = true) :
    j.run.1 = j.second (j.diagnostics .builderFactory j.attemptBuilder) := by
  obtain ⟨hraised, hdelivered⟩ := Bool.and_eq_true_iff.1 h
  unfold run second
  dsimp only
  rw [Option.isNone_iff_eq_none.1 hraised, Option.isNone_iff_eq_none.1 hdelivered]
  dsimp only
  cases raised? j.attemptFactory with
  | some f => rfl
  | none => cases delivered? j.attemptFactory <;> rfl

/-- The second attempt does not know what was reported before. -/
theorem second_eq_error_iff {j : Job} {first first' : List Diagnostic} {e : Fault} :
    j.second first = .error e ↔ j.second first' = .error e := by
  unfold second
  cases raised? j.attemptFactory with
  | some f => exact Iff.rfl
  | none => cases delivered? j.attemptFactory <;> simp

/-- What was reported before stands before what the second attempt reports, and that is all that is
left of it. -/
theorem second_eq_ok {j : Job} {first first' : List Diagnostic} {r r' : BuildResult}
    (h : j.second first = .ok r) (h' : j.second first' = .ok r') :
    r.built = r'.built ∧ r.ok = r'.ok ∧ r.path = r'.path ∧
      ∃ rest, r'.diagnostics = first' ++ rest ∧ r.diagnostics = first ++ rest := by
  unfold second at h h'
  cases hr : raised? j.attemptFactory with
  | some f => rw [hr] at h; cases h
  | none =>
    rw [hr] at h h'
    cases hd : delivered? j.attemptFactory with
    | some x =>
      rw [hd] at h h'
      cases h
      cases h'
      exact ⟨rfl, rfl, rfl, _, rfl, rfl⟩
    | none =>
      rw [hd] at h h'
      cases h
      cases h'
      exact ⟨rfl, rfl, rfl, _, rfl, rfl⟩

/-- The factory does not know whether there is a builder factory. -/
theorem attemptFactory_withoutBuilder (j : Job) :
    j.withoutBuilder.attemptFactory = j.attemptFactory := rfl

/-- What is reported about an attempt does not either. -/
theorem diagnostics_withoutBuilder (j : Job) (kind : EntryKind) (a : Attempt) :
    j.withoutBuilder.diagnostics kind a = j.diagnostics kind a := by
  rcases a with _ | _ | ⟨_ | _, _⟩ | _ <;> cases kind <;> rfl

/-- Without a builder factory the build is that of the factory, after a diagnostic about what the
plugin does not offer. -/
theorem run_withoutBuilder_eq (j : Job) :
    j.withoutBuilder.run.1 = j.second [j.miss .builderFactory] := by
  have habsent : j.withoutBuilder.attemptBuilder = .absent := rfl
  have hgoes : goesOn j.withoutBuilder.attemptBuilder = true := rfl
  rw [run_of_goesOn hgoes, second, second, attemptFactory_withoutBuilder,
    diagnostics_withoutBuilder, diagnostics_withoutBuilder, habsent]
  rfl

/-- A failure that cannot be put into words ends the build. -/
theorem run_of_raised {j : Job} {e : Fault} (h : raised? j.attemptBuilder = some e) :
    j.run.1 = .error e := by
  unfold run
  dsimp only
  rw [h]

/-- The attempt of a builder factory delivers no instance just when it stops at one of the listed
points. If it stops with a fault that has no text, what forming the text fails with is handed on,
and the factory is not tried. Wherever else it stops, the build comes to the same as that of the
plugin type without its builder factory: both hand on the same fault, or both have results that are
the same, with the failure of the first attempt in the place of the diagnostic that there is no
builder factory, or with nothing in its place if no builder was opened. -/
theorem run_withoutBuilder (j : Job) {f : BuilderFactory}
    (hf : j.type.strategy.builderFactory = some f) :
    ((∃ message, j.ComesToNothing f message) ↔ delivered? j.attemptBuilder = none) ∧
      (∀ e, j.ComesToNothing f (some (.error e)) → j.run.1 = .error e) ∧
      ∀ text : Option String, j.ComesToNothing f (text.map .ok) →
        (text = none ↔ f.start = .ok none) ∧
        (∀ e, j.run.1 = .error e ↔ j.withoutBuilder.run.1 = .error e) ∧
        ∀ r r', j.run.1 = .ok r → j.withoutBuilder.run.1 = .ok r' →
          r.built = r'.built ∧ r.ok = r'.ok ∧ r.path = r'.path ∧
          ∃ rest, r'.diagnostics = j.miss .builderFactory :: rest ∧
            r.diagnostics = text.toList.map (j.failure .builderFactory) ++ rest := by
  refine ⟨exists_comesToNothing_iff hf, fun e h => ?_, fun text h => ?_⟩
  · rcases attemptBuilder_of_comesToNothing hf h with ⟨hnone, _⟩ | ⟨m, log, hm, ha⟩
    · cases hnone
    · cases hm
      exact run_of_raised (by rw [ha]; rfl)
  · have hfirst : goesOn j.attemptBuilder = true ∧
        j.diagnostics .builderFactory j.attemptBuilder =
          text.toList.map (j.failure .builderFactory) := by
      rcases attemptBuilder_of_comesToNothing hf h with ⟨hnone, ha⟩ | ⟨m, log, hm, ha⟩
      · rw [Option.map_eq_none_iff.1 hnone, ha]
        exact ⟨rfl, rfl⟩
      · obtain ⟨t, ht, rfl⟩ := Option.map_eq_some_iff.1 hm
        rw [ht, ha]
        exact ⟨rfl, rfl⟩
    obtain ⟨hgoes, hdiagnostics⟩ := hfirst
    have hrun := run_of_goesOn hgoes
    rw [hdiagnostics] at hrun
    have hother := j.run_withoutBuilder_eq
    refine ⟨?_, fun e => ?_, fun r r' hr hr' => ?_⟩
    · rw [← h.message_eq_none_iff, Option.map_eq_none_iff]
    · rw [hrun, hother]
      exact second_eq_error_iff
    · rw [hrun] at hr
      rw [hother] at hr'
      exact second_eq_ok hr hr'

/-- An attribute as an input; `required` tells whether it must be there. -/
private def attributeInput (name : String) (required : Bool) : Input :=
  ⟨name, [⟨.attribute .null required false true, some name⟩], [], .basic .str, some 0⟩

/-- A declaration of an attribute, which may be required. -/
private def attributeField (name : String) (required : Bool) : BuilderField :=
  ⟨name, some (.annotated (.type (.basic .str))
    [.marker ⟨.attribute .null required false true, none⟩]), none⟩

/-- A builder factory whose builders need a lid. -/
private def chestFactory : BuilderFactory :=
  ⟨"builder", .ok (some ⟨"Builder", [attributeField "size" false, attributeField "lid" true],
    some fun _ => .ok .null⟩)⟩

/-- The job of building a chest without a lid, by a builder or else by a factory that needs none. -/
private def chestBy (f : BuilderFactory) : Job :=
  ⟨⟨⟨0, "Chest", "plugins", []⟩, ⟨"Chest", "plugins", "chest", none, "chest", false, []⟩,
      ⟨some f, some ⟨"create", [attributeInput "size" false], fun xs => .ok (.list xs)⟩⟩⟩,
    ⟨"chest", [("size", .str "large"), ("color", .str "red")], none, .empty, []⟩, .null,
    ⟨[], .process []⟩, .standard, none, []⟩

/-- The job of building a chest by a builder that needs a lid. -/
private def chest : Job := chestBy chestFactory

/-- The builder attempt takes the size before it misses the lid; the factory has the size again. -/
theorem run_withoutBuilder_chest :
    chest.type.strategy.builderFactory = some chestFactory ∧
      ∃ text r r' rest, chest.ComesToNothing chestFactory (some (.ok text)) ∧
        chest.run.1 = .ok r ∧ chest.withoutBuilder.run.1 = .ok r' ∧
        r.path = r'.path ∧ r.built = r'.built ∧
        r'.diagnostics = chest.miss .builderFactory :: rest ∧
        r.diagnostics = chest.failure .builderFactory text :: rest := by
  have hnone : (delivered? chest.attemptBuilder).isNone = true := by decide +kernel
  have hok : chest.run.1.isOk = true := by decide +kernel
  have hopened : chestFactory.start ≠ .ok none := by intro h; cases h
  obtain ⟨hiff, hmute, hall⟩ := run_withoutBuilder chest rfl
  cases hrun : chest.run.1 with
  | error e => rw [hrun] at hok; cases hok
  | ok r =>
    obtain ⟨message, h⟩ := hiff.2 (Option.isNone_iff_eq_none.1 hnone)
    rcases message with _ | ⟨e | text⟩
    · exact absurd (h.message_eq_none_iff.1 rfl) hopened
    · rw [hmute e h] at hrun
      cases hrun
    · obtain ⟨_, herror, hsame⟩ := hall (some text) h
      cases hrun' : chest.withoutBuilder.run.1 with
      | error e => rw [(herror e).2 hrun'] at hrun; cases hrun
      | ok r' =>
        obtain ⟨hbuilt, _, hpath, rest, hother, hdiagnostics⟩ := hsame r r' hrun hrun'
        exact ⟨rfl, text, r, r', rest, h, rfl, rfl, hpath, hbuilt, hother, hdiagnostics⟩

/-- A builder factory that fails with a fault whose text is missing. -/
private def muteFactory : BuilderFactory := ⟨"builder", .error (.mute (.said .type "no text"))⟩

/-- Without its builder factory the plugin type builds a chest; with a builder factory that fails
with a fault without a text, nothing is built. -/
theorem not_forall_run_withoutBuilder :
    ¬ ∀ (j : Job) (f : BuilderFactory), j.type.strategy.builderFactory = some f →
      delivered? j.attemptBuilder = none →
      j.run.1.map (·.built) = j.withoutBuilder.run.1.map (·.built) := by
  intro h
  have hnone : (delivered? (chestBy muteFactory).attemptBuilder).isNone = true := by decide +kernel
  have hsame := h (chestBy muteFactory) muteFactory rfl (Option.isNone_iff_eq_none.1 hnone)
  have hraised : (chestBy muteFactory).run.1.isOk = false := by decide +kernel
  have hbuilt : (chestBy muteFactory).withoutBuilder.run.1.isOk = true := by decide +kernel
  have hmap : ∀ r : Except Fault BuildResult, (r.map (·.built)).isOk = r.isOk := by
    rintro (_ | _) <;> rfl
  rw [← hmap, hsame, hmap, hbuilt] at hraised
  cases hraised

end ConfigAssembly.Job
