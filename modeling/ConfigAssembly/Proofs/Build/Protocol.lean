import ConfigAssembly.Proofs.Build.SecondAttempt

/-!
# What the result of a build says

Whatever fails on the way, a build ends in one of four ways. The builder delivers, or the factory
does after at most one diagnostic about the builder, or neither does and the last diagnostic says
what was wrong with the factory (`Job.Ending`), or something fails with a fault that has no text,
and the build has no result (`Job.EndsMutely`). `Job.run_ending` and
`Job.run_eq_error_iff_endsMutely` are the only places that look into the attempts for this; what the
diagnostics of a result look like follows from the three ways in which there is one and from the
order in which leftovers are reported (`Job.FailSoft`, `Order.job_failSoft`).

A build may deliver nothing. `Job.EndsSilently` lists the two runs that do so and say nothing about
it, and these are all that have no diagnostic which explains the missing instance
(`Job.run_unexplained_iff`).
-/

namespace ConfigAssembly

namespace DiagnosticKind

/-- Diagnostics of the kind report data that nobody took. -/
def isUnused : DiagnosticKind → Bool
  | .unusedAttribute | .unusedChild => true
  | _ => false

/-- Diagnostics of the kind explain why an attempt delivered no instance. -/
def explains : DiagnosticKind → Bool
  | .resolutionMiss | .invocationFailure => true
  | _ => false

/-- No kind of diagnostic does both. -/
theorem isUnused_eq_false_of_explains {k : DiagnosticKind} (h : k.explains = true) :
    k.isUnused = false := by
  cases k <;> first | rfl | cases h

/-- The same the other way round. -/
theorem explains_eq_false_of_isUnused {k : DiagnosticKind} (h : k.isUnused = true) :
    k.explains = false := by
  by_contra he
  rw [Bool.not_eq_false] at he
  rw [isUnused_eq_false_of_explains he] at h
  cases h

end DiagnosticKind

/-- A way of construction that was gone to its end counts as a failure just if it delivered
nothing. -/
theorem BuildResult.ok_through_eq_false_iff {x : Value} {path : BuildPath}
    {ds : List Diagnostic} : (through x path ds).ok = false ↔ x = .null := by
  cases x <;> simp [through, Value.isNull]

/-! ### Leftovers -/

/-- Of some diagnostics at most one is about attributes that nobody took, it comes before those
about children, and there are none about children where these are deferred. -/
structure Orderly (deferChildren : Bool) (ds : List Diagnostic) : Prop where
  attributesOnce : (ds.filter fun d => d.kind == .unusedAttribute).length ≤ 1
  attributesFirst : ds.Pairwise fun d d' => d.kind = .unusedChild → d'.kind ≠ .unusedAttribute
  deferred : deferChildren = true → ∀ d ∈ ds, d.kind ≠ .unusedChild

/-- Diagnostics about other things may come before. -/
theorem Orderly.append {deferChildren : Bool} {ds : List Diagnostic}
    (h : Orderly deferChildren ds) {before : List Diagnostic}
    (hbefore : ∀ d ∈ before, d.kind.isUnused = false) : Orderly deferChildren (before ++ ds) := by
  have hkinds : ∀ d ∈ before, d.kind ≠ .unusedAttribute ∧ d.kind ≠ .unusedChild := by
    intro d hd
    have hkind := hbefore d hd
    constructor
    · intro he
      rw [he] at hkind
      cases hkind
    · intro he
      rw [he] at hkind
      cases hkind
  constructor
  · have hnone : before.filter (fun d => d.kind == .unusedAttribute) = [] := by
      rw [List.filter_eq_nil_iff]
      intro d hd
      simpa using (hkinds d hd).1
    rw [List.filter_append, hnone, List.nil_append]
    exact h.attributesOnce
  · rw [List.pairwise_append]
    refine ⟨?_, h.attributesFirst, ?_⟩
    · rw [List.pairwise_iff_forall_sublist]
      intro d d' hsub hchild
      have hmem : d ∈ before := hsub.subset List.mem_cons_self
      exact absurd hchild (hkinds d hmem).2
    · intro d hd d' _ hchild
      exact absurd hchild (hkinds d hd).2
  · intro hdefer d hd
    rcases List.mem_append.1 hd with hd | hd
    · exact (hkinds d hd).2
    · exact h.deferred hdefer d hd

/-- No diagnostics are in order. -/
theorem orderly_nil (deferChildren : Bool) : Orderly deferChildren [] := by
  constructor <;> simp

namespace Taken

/-- Attributes that nobody took are reported in one diagnostic, or there are none. -/
theorem unusedAttributes_alternatives (c : Taken) (n : Node) :
    c.unusedAttributes n = [] ∨ ∃ d, c.unusedAttributes n = [d] ∧ d.kind = .unusedAttribute := by
  unfold unusedAttributes
  dsimp only
  split
  · exact .inl rfl
  · exact .inr ⟨_, rfl, rfl⟩
  · exact .inr ⟨_, rfl, rfl⟩

/-- Children that nobody took are reported as such. -/
theorem kind_of_mem_unusedChildren {c : Taken} {n : Node} {d : Diagnostic}
    (h : d ∈ c.unusedChildren n) : d.kind = .unusedChild := by
  obtain ⟨child, _, rfl⟩ := List.mem_map.1 h
  rfl

/-- Leftovers are reported as unused data and as nothing else. -/
theorem isUnused_of_mem_leftovers {c : Taken} {n : Node} {deferChildren : Bool} {d : Diagnostic}
    (h : d ∈ c.leftovers n deferChildren) : d.kind.isUnused = true := by
  unfold leftovers at h
  rcases List.mem_append.1 h with h | h
  · rcases c.unusedAttributes_alternatives n with hnil | ⟨d', hone, hkind⟩
    · rw [hnil] at h
      cases h
    · rw [hone, List.mem_singleton] at h
      rw [h, hkind]
      rfl
  · split at h
    · cases h
    · rw [kind_of_mem_unusedChildren h]
      rfl

/-- Leftovers are reported in order: first the attributes, all at once, and then the children. -/
theorem orderly_leftovers (c : Taken) (n : Node) (deferChildren : Bool) :
    Orderly deferChildren (c.leftovers n deferChildren) := by
  have hchildren : ∀ d ∈ (if deferChildren then [] else c.unusedChildren n),
      d.kind = .unusedChild ∧ deferChildren = false := by
    intro d hd
    cases deferChildren with
    | true => cases hd
    | false => exact ⟨kind_of_mem_unusedChildren hd, rfl⟩
  have hfilter : (if deferChildren then [] else c.unusedChildren n).filter
      (fun d => d.kind == .unusedAttribute) = [] := by
    rw [List.filter_eq_nil_iff]
    intro d hd
    rw [(hchildren d hd).1]
    decide
  unfold leftovers
  constructor
  · rw [List.filter_append, hfilter, List.append_nil]
    rcases c.unusedAttributes_alternatives n with hnil | ⟨d, hone, hkind⟩
    · rw [hnil]
      decide
    · rw [hone]
      simp [hkind]
  · rw [List.pairwise_append]
    refine ⟨?_, ?_, ?_⟩
    · rcases c.unusedAttributes_alternatives n with hnil | ⟨d, hone, _⟩
      · rw [hnil]
        exact .nil
      · rw [hone]
        exact List.pairwise_singleton _ d
    · rw [List.pairwise_iff_forall_sublist]
      intro d d' hsub _
      have hmem := hsub.subset (List.mem_cons_of_mem d List.mem_cons_self)
      rw [(hchildren d' hmem).1]
      decide
    · intro d _ d' hd' _
      rw [(hchildren d' hd').1]
      decide
  · intro hdefer d hd
    rcases List.mem_append.1 hd with hd | hd
    · rcases c.unusedAttributes_alternatives n with hnil | ⟨d', hone, hkind⟩
      · rw [hnil] at hd
        cases hd
      · rw [hone, List.mem_singleton] at hd
        rw [hd, hkind]
        decide
    · rw [(hchildren d hd).2] at hdefer
      cases hdefer

end Taken

/-! ### What attempts deliver -/

/-- An attempt delivers what is made of the values that it finds. -/
theorem Attempt.delivered?_ofOutcome_iff {α : Type} {o : Outcome α}
    {make : α → Except Fault Value} {leftovers : Taken → List Diagnostic} {y : Value} :
    Job.delivered? (.ofOutcome o make leftovers) = some y ↔
      ∃ x, o.result = .ok x ∧ make x = .ok y := by
  cases ho : o.result with
  | error e =>
    rw [ofOutcome_of_error ho]
    simp [Job.delivered?]
  | ok x =>
    cases hm : make x with
    | error f =>
      rw [ofOutcome_of_fault ho hm]
      simp [Job.delivered?, hm]
    | ok z =>
      rw [ofOutcome_of_ok ho hm]
      simp [Job.delivered?, hm]

namespace Job

variable {j : Job}

/-- The attempt by a builder delivers what the builder makes of its fields. -/
theorem delivered?_attemptBuilder_iff {x : Value} :
    delivered? j.attemptBuilder = some x ↔
      ∃ f b fields, j.type.strategy.builderFactory = some f ∧ f.start = .ok (some b) ∧
        (j.binder.inject b.inputs b.initial j.taken).result = .ok fields ∧
        b.finish fields = .ok x := by
  constructor
  · intro h
    cases hf : j.type.strategy.builderFactory with
    | none =>
      rw [attemptBuilder_of_absent hf] at h
      cases h
    | some f =>
      rcases hs : f.start with e | _ | b
      · rw [attemptBuilder_of_unopened hf hs] at h
        cases h
      · rw [attemptBuilder_of_declined hf hs] at h
        cases h
      · rw [attemptBuilder_of_opened hf hs, runBuilder_eq, Attempt.delivered?_ofOutcome_iff] at h
        obtain ⟨fields, hfields, hx⟩ := h
        exact ⟨f, b, fields, rfl, hs, hfields, hx⟩
  · rintro ⟨f, b, fields, hf, hs, hfields, hx⟩
    rw [attemptBuilder_of_opened hf hs, runBuilder_eq, Attempt.delivered?_ofOutcome_iff]
    exact ⟨fields, hfields, hx⟩

/-- The attempt by a factory delivers what the factory makes of its arguments. -/
theorem delivered?_attemptFactory_iff {x : Value} :
    delivered? j.attemptFactory = some x ↔
      ∃ f xs, j.type.strategy.factory = some f ∧
        (j.binder.arguments f.inputs j.taken).result = .ok xs ∧ f.create xs = .ok x := by
  cases hf : j.type.strategy.factory with
  | none =>
    rw [attemptFactory_of_absent hf]
    simp [delivered?]
  | some f =>
    rw [attemptFactory_eq hf, Attempt.delivered?_ofOutcome_iff]
    simp

/-- What an attempt may come to: an instance, or nothing, with what was left over, or one diagnostic
about the attempt, or none as its failure has no text, or that no builder was opened. -/
inductive Attempted (j : Job) : EntryKind → Attempt → Prop
  | absent (kind : EntryKind) : Attempted j kind .absent
  | declined {f : BuilderFactory} (hf : j.type.strategy.builderFactory = some f)
    (h : f.start = .ok none) : Attempted j .builderFactory .declined
  | failed (kind : EntryKind) (message : Except Fault String) (log : Log) :
    Attempted j kind (.failed message log)
  | done (kind : EntryKind) (x : Value) (c : Taken) (log : Log) :
    Attempted j kind (.done x (j.leftovers c) log)

/-- Binding values and making an instance of them comes to one of these. -/
theorem attempted_ofOutcome {α : Type} (kind : EntryKind) (o : Outcome α)
    (make : α → Except Fault Value) : j.Attempted kind (.ofOutcome o make j.leftovers) := by
  cases ho : o.result with
  | error e =>
    rw [Attempt.ofOutcome_of_error ho]
    exact .failed kind e.message o.log
  | ok x =>
    cases hm : make x with
    | error f =>
      rw [Attempt.ofOutcome_of_fault ho hm]
      exact .failed kind f.text o.log
    | ok y =>
      rw [Attempt.ofOutcome_of_ok ho hm]
      exact .done kind y o.taken o.log

/-- So does the attempt by a builder. -/
theorem attempted_attemptBuilder (j : Job) : j.Attempted .builderFactory j.attemptBuilder := by
  cases hf : j.type.strategy.builderFactory with
  | none =>
    rw [attemptBuilder_of_absent hf]
    exact .absent _
  | some f =>
    rcases hs : f.start with e | _ | b
    · rw [attemptBuilder_of_unopened hf hs]
      exact .failed _ _ _
    · rw [attemptBuilder_of_declined hf hs]
      exact .declined hf hs
    · rw [attemptBuilder_of_opened hf hs, runBuilder_eq]
      exact attempted_ofOutcome _ _ _

/-- So does the attempt by a factory. -/
theorem attempted_attemptFactory (j : Job) : j.Attempted .factory j.attemptFactory := by
  cases hf : j.type.strategy.factory with
  | none =>
    rw [attemptFactory_of_absent hf]
    exact .absent _
  | some f =>
    rw [attemptFactory_eq hf]
    exact attempted_ofOutcome _ _ _

/-! ### How a build ends -/

/-- What is said about the builder before the factory is tried: that there is none, or that it
failed, or nothing. -/
def FirstWord (j : Job) (ds : List Diagnostic) : Prop :=
  ds = [] ∨ ds = [j.miss .builderFactory] ∨ ∃ message, ds = [j.failure .builderFactory message]

/-- What is said last when no instance was delivered: that there is no factory, or that it
failed. -/
def LastWord (j : Job) (d : Diagnostic) : Prop :=
  d = j.miss .factory ∨ ∃ message, d = j.failure .factory message

/-- The ways in which a build that has a result may end. -/
inductive Ending (j : Job) : BuildResult → Prop
  | builder (x : Value) (c : Taken) : Ending j (.through x .builder (j.leftovers c))
  | factory {first : List Diagnostic} (hfirst : j.FirstWord first) (x : Value) (c : Taken) :
    Ending j (.through x .factory (first ++ j.leftovers c))
  | failed {first : List Diagnostic} (hfirst : j.FirstWord first) {last : Diagnostic}
    (hlast : j.LastWord last) : Ending j (.failure (first ++ [last]))

/-- An attempt that delivers hands on no fault. -/
theorem raised?_of_delivered?_eq_some {a : Attempt} {x : Value} (h : delivered? a = some x) :
    raised? a = none := by
  cases a with
  | absent | declined | done => rfl
  | failed => cases h

/-- A builder that delivers ends the build. -/
theorem run_of_delivered?_eq_some {x : Value} (h : delivered? j.attemptBuilder = some x) :
    j.run.1 = .ok (.through x .builder (j.diagnostics .builderFactory j.attemptBuilder)) := by
  unfold run
  dsimp only
  rw [raised?_of_delivered?_eq_some h, h]

/-- Otherwise a factory that delivers does, once it is tried. -/
theorem run_of_delivered?_attemptFactory (hgoes : goesOn j.attemptBuilder = true) {x : Value}
    (h : delivered? j.attemptFactory = some x) :
    j.run.1 = .ok (.through x .factory
      (j.diagnostics .builderFactory j.attemptBuilder ++
        j.diagnostics .factory j.attemptFactory)) := by
  rw [run_of_goesOn hgoes]
  unfold second
  rw [raised?_of_delivered?_eq_some h, h]

/-- What is said about a builder before the factory is tried. -/
theorem firstWord_of_goesOn (h : goesOn j.attemptBuilder = true) :
    j.FirstWord (j.diagnostics .builderFactory j.attemptBuilder) := by
  cases ha : j.attemptBuilder with
  | absent => exact .inr (.inl rfl)
  | declined => exact .inl rfl
  | failed message log =>
    cases message with
    | ok message => exact .inr (.inr ⟨message, rfl⟩)
    | error f => rw [ha] at h; cases h
  | done => rw [ha] at h; cases h

/-- Every build that has a result ends in one of these ways. -/
theorem run_ending {r : BuildResult} (h : j.run.1 = .ok r) : j.Ending r := by
  rcases attempt_cases j.attemptBuilder with ⟨f, hr⟩ | ⟨_, x, hd⟩ | ⟨hr, hd⟩
  · rw [run_of_raised hr] at h
    cases h
  · have hbuilder := j.attempted_attemptBuilder
    rw [run_of_delivered?_eq_some hd] at h
    cases h
    generalize j.attemptBuilder = a at hbuilder hd
    cases hbuilder with
    | absent | declined | failed => cases hd
    | done _ y c log =>
      cases hd
      exact .builder x c
  · have hgoes : goesOn j.attemptBuilder = true := by rw [goesOn, hr, hd]; rfl
    have hfirst := firstWord_of_goesOn hgoes
    have hfactory := j.attempted_attemptFactory
    rw [run_of_goesOn hgoes] at h
    unfold second at h
    generalize j.attemptFactory = a at hfactory h
    cases hfactory with
    | absent =>
      cases h
      exact .failed hfirst (.inl rfl)
    | failed _ message log =>
      cases message with
      | error f => cases h
      | ok message =>
        cases h
        exact .failed hfirst (.inr ⟨message, rfl⟩)
    | done _ x c log =>
      cases h
      exact .factory hfirst x c

/-- What is said first explains why there is no instance of a builder. -/
theorem FirstWord.explains {first : List Diagnostic} (h : j.FirstWord first) :
    ∀ d ∈ first, d.kind.explains = true := by
  intro d hd
  rcases h with rfl | rfl | ⟨message, rfl⟩
  · cases hd
  · rw [List.mem_singleton.1 hd]
    rfl
  · rw [List.mem_singleton.1 hd]
    rfl

/-- What is said last explains why there is no instance at all. -/
theorem LastWord.explains {last : Diagnostic} (h : j.LastWord last) :
    last.kind.explains = true := by
  rcases h with rfl | ⟨message, rfl⟩
  · rfl
  · rfl

/-- A build reports data that nobody took, or why an attempt delivered no instance, and nothing
else. -/
theorem Ending.isUnused_or_explains {r : BuildResult} (h : j.Ending r) :
    ∀ d ∈ r.diagnostics, d.kind.isUnused = true ∨ d.kind.explains = true := by
  intro d hd
  cases h with
  | builder x c => exact .inl (Taken.isUnused_of_mem_leftovers hd)
  | factory hfirst x c =>
    rcases List.mem_append.1 hd with hd | hd
    · exact .inr (hfirst.explains d hd)
    · exact .inl (Taken.isUnused_of_mem_leftovers hd)
  | failed hfirst hlast =>
    rcases List.mem_append.1 hd with hd | hd
    · exact .inr (hfirst.explains d hd)
    · rw [List.mem_singleton.1 hd]
      exact .inr hlast.explains

/-- What the result of a build tells its caller, depending on the way in which the instance came
about, and in which order. -/
structure FailSoft (j : Job) (r : BuildResult) : Prop where
  ok_iff : r.ok = true ↔ r.built ≠ .null
  builder : r.path = some .builder → ∀ d ∈ r.diagnostics, d.kind.isUnused = true
  factory : r.path = some .factory → ∃ first rest, r.diagnostics = first ++ rest ∧
    j.FirstWord first ∧ ∀ d ∈ rest, d.kind.isUnused = true
  failed : r.path = none → r.built = .null ∧ (∀ d ∈ r.diagnostics, d.kind.isUnused = false) ∧
    ∃ first last, r.diagnostics = first ++ [last] ∧ j.LastWord last
  orderly : Orderly j.type.deferChildren r.diagnostics

/-- Each of the ways in which a build may end is told as such. -/
theorem Ending.failSoft {r : BuildResult} (h : j.Ending r) : j.FailSoft r := by
  have hunused : ∀ (c : Taken), ∀ d ∈ j.leftovers c, d.kind.isUnused = true :=
    fun _ _ hd => Taken.isUnused_of_mem_leftovers hd
  have horderly : ∀ (c : Taken), Orderly j.type.deferChildren (j.leftovers c) :=
    fun c => c.orderly_leftovers j.node j.type.deferChildren
  have hok : ∀ (x : Value) (path : BuildPath) (ds : List Diagnostic),
      (BuildResult.through x path ds).ok = true ↔
        (BuildResult.through x path ds).built ≠ .null := by
    intro x path ds
    rw [← Bool.not_eq_false, ne_eq, not_iff_not]
    exact BuildResult.ok_through_eq_false_iff
  cases h with
  | builder x c =>
    constructor
    · exact hok x .builder _
    · exact fun _ => hunused c
    · intro hpath
      cases hpath
    · intro hpath
      cases hpath
    · exact horderly c
  | @factory first hfirst x c =>
    constructor
    · exact hok x .factory _
    · intro hpath
      cases hpath
    · exact fun _ => ⟨first, j.leftovers c, rfl, hfirst, hunused c⟩
    · intro hpath
      cases hpath
    · exact (horderly c).append fun d hd =>
        DiagnosticKind.isUnused_eq_false_of_explains (hfirst.explains d hd)
  | @failed first hfirst last hlast =>
    have hnone : ∀ d ∈ first ++ [last], d.kind.isUnused = false := by
      intro d hd
      rcases List.mem_append.1 hd with hd | hd
      · exact DiagnosticKind.isUnused_eq_false_of_explains (hfirst.explains d hd)
      · rw [List.mem_singleton.1 hd]
        exact DiagnosticKind.isUnused_eq_false_of_explains hlast.explains
    constructor
    · exact ⟨fun h => (by cases h), fun h => absurd rfl h⟩
    · intro hpath
      cases hpath
    · intro hpath
      cases hpath
    · exact fun _ => ⟨rfl, hnone, first, last, rfl, hlast⟩
    · have hall := (orderly_nil j.type.deferChildren).append hnone
      rwa [List.append_nil] at hall

/-! ### Builds without a result -/

/-- An input, or what makes an instance of the values, fails with a fault. -/
inductive Attempt.FailsWith {α : Type} (o : Outcome α) (make : α → Except Fault Value) (f : Fault) :
    Prop
  | input (h : o.result = .error (.fault f))
  | maker {x : α} (hx : o.result = .ok x) (h : make x = .error f)

/-- Something fails with a fault that has no text, as forming it fails with another one: giving a
builder, one of its inputs or the builder itself, or, once the factory is tried, one of its
parameters or the factory itself. -/
inductive EndsMutely (j : Job) (failure : Fault) : Prop
  | opening {f : BuilderFactory} (hf : j.type.strategy.builderFactory = some f)
    (h : f.start = .error (.mute failure)) : EndsMutely j failure
  | builder {f : BuilderFactory} {b : BuilderClass}
    (hf : j.type.strategy.builderFactory = some f) (hs : f.start = .ok (some b))
    (h : Attempt.FailsWith (j.binder.inject b.inputs b.initial j.taken) b.finish
      (.mute failure)) : EndsMutely j failure
  | factory {g : Factory} (hgoes : goesOn j.attemptBuilder = true)
    (hg : j.type.strategy.factory = some g)
    (h : Attempt.FailsWith (j.binder.arguments g.inputs j.taken) g.create (.mute failure)) :
    EndsMutely j failure

/-- What is wrong with an input cannot be said just if this is a fault without a text. -/
theorem message_eq_error_iff {e : InputError} {failure : Fault} :
    e.message = .error failure ↔ e = .fault (.mute failure) := by
  constructor
  · intro h
    cases e with
    | fault f => rw [Fault.text_eq_error_iff.1 h]
    | missingAttribute | missingElement | missingText | conversion => cases h
  · rintro rfl
    rfl

/-- An attempt hands on a fault just if it fails with one that has no text. -/
theorem raised?_ofOutcome_iff {α : Type} {o : Outcome α} {make : α → Except Fault Value}
    {leftovers : Taken → List Diagnostic} {failure : Fault} :
    raised? (.ofOutcome o make leftovers) = some failure ↔
      Attempt.FailsWith o make (.mute failure) := by
  have hfailed : ∀ {m : Except Fault String} {log : Log},
      raised? (.failed m log) = some failure ↔ m = .error failure := by
    rintro (_ | _) log <;> simp [raised?]
  constructor
  · intro h
    cases ho : o.result with
    | error e =>
      rw [Attempt.ofOutcome_of_error ho, hfailed, message_eq_error_iff] at h
      exact .input (h ▸ ho)
    | ok x =>
      cases hm : make x with
      | error f =>
        rw [Attempt.ofOutcome_of_fault ho hm, hfailed, Fault.text_eq_error_iff] at h
        exact .maker ho (h ▸ hm)
      | ok y =>
        rw [Attempt.ofOutcome_of_ok ho hm] at h
        cases h
  · intro h
    cases h with
    | input h => rw [Attempt.ofOutcome_of_error h]; rfl
    | maker hx h => rw [Attempt.ofOutcome_of_fault hx h]; rfl

/-- The attempt by a builder hands on a fault just if giving the builder, one of its inputs or the
builder itself fails with one that has no text. -/
theorem raised?_attemptBuilder_iff {failure : Fault} :
    raised? j.attemptBuilder = some failure ↔
      ∃ f, j.type.strategy.builderFactory = some f ∧ (f.start = .error (.mute failure) ∨
        ∃ b, f.start = .ok (some b) ∧ Attempt.FailsWith
          (j.binder.inject b.inputs b.initial j.taken) b.finish (.mute failure)) := by
  cases hf : j.type.strategy.builderFactory with
  | none => simp [attemptBuilder_of_absent hf, raised?]
  | some f =>
    rcases hs : f.start with e | _ | b
    · rw [attemptBuilder_of_unopened hf hs]
      cases e with
      | mute e => simp [raised?, hs, Fault.text]
      | said kind message => cases kind <;> simp [raised?, hs, Fault.text]
    · simp [attemptBuilder_of_declined hf hs, raised?, hs]
    · rw [attemptBuilder_of_opened hf hs, runBuilder_eq, raised?_ofOutcome_iff]
      simp [hs]

/-- So does the attempt by a factory for one of its parameters or the factory itself. -/
theorem raised?_attemptFactory_iff {failure : Fault} :
    raised? j.attemptFactory = some failure ↔
      ∃ g, j.type.strategy.factory = some g ∧ Attempt.FailsWith
        (j.binder.arguments g.inputs j.taken) g.create (.mute failure) := by
  cases hg : j.type.strategy.factory with
  | none => simp [attemptFactory_of_absent hg, raised?]
  | some g =>
    rw [attemptFactory_eq hg, raised?_ofOutcome_iff]
    simp

/-- A build has no result, and hands on a fault, just if it ends mutely. -/
theorem run_eq_error_iff_endsMutely {failure : Fault} :
    j.run.1 = .error failure ↔ j.EndsMutely failure := by
  rw [run_eq_error_iff]
  constructor
  · intro h
    obtain ⟨⟨kind, a⟩, ha, hraised⟩ := List.exists_of_findSome?_eq_some h
    rcases List.mem_cons.1 ha with he | ha
    · cases he
      obtain ⟨f, hf, hs | ⟨b, hs, hfails⟩⟩ := raised?_attemptBuilder_iff.1 hraised
      · exact .opening hf hs
      · exact .builder hf hs hfails
    · split at ha
      · rename_i hgoes
        cases List.mem_singleton.1 ha
        obtain ⟨g, hg, hfails⟩ := raised?_attemptFactory_iff.1 hraised
        exact .factory hgoes hg hfails
      · cases ha
  · intro h
    unfold raisedBy attempts
    cases h with
    | opening hf hs =>
      rw [List.findSome?_cons, raised?_attemptBuilder_iff.2 ⟨_, hf, Or.inl hs⟩]
    | builder hf hs hfails =>
      rw [List.findSome?_cons, raised?_attemptBuilder_iff.2 ⟨_, hf, Or.inr ⟨_, hs, hfails⟩⟩]
    | factory hgoes hg hfails =>
      have hnone := Option.isNone_iff_eq_none.1 (Bool.and_eq_true_iff.1 hgoes).1
      rw [if_pos hgoes, List.findSome?_cons, hnone, List.findSome?_cons,
        raised?_attemptFactory_iff.2 ⟨_, hg, hfails⟩]

/-! ### Builds that say nothing -/

/-- A build ends without an instance and says nothing about it: what makes the instance makes
nothing, and no attempt was missing or failed. -/
inductive EndsSilently (j : Job) : Prop
  /-- The builder makes nothing. -/
  | builder {f : BuilderFactory} {b : BuilderClass} {fields : Fields}
    (hf : j.type.strategy.builderFactory = some f) (hs : f.start = .ok (some b))
    (hfields : (j.binder.inject b.inputs b.initial j.taken).result = .ok fields)
    (hx : b.finish fields = .ok .null) : EndsSilently j
  /-- No builder is opened, and the factory makes nothing. -/
  | factory {f : BuilderFactory} {g : Factory} {xs : List Value}
    (hf : j.type.strategy.builderFactory = some f) (hs : f.start = .ok none)
    (hg : j.type.strategy.factory = some g)
    (hxs : (j.binder.arguments g.inputs j.taken).result = .ok xs)
    (hx : g.create xs = .ok .null) : EndsSilently j

/-- An attempt that delivers reports leftovers only. -/
theorem Attempted.diagnostics_eq {kind : EntryKind} {a : Attempt} (h : j.Attempted kind a)
    {x : Value} (hd : delivered? a = some x) : ∃ c, j.diagnostics kind a = j.leftovers c := by
  cases h with
  | absent | declined | failed => cases hd
  | done _ y c log => exact ⟨c, rfl⟩

/-- An attempt that says nothing that explains the lack of an instance, without handing on a fault,
delivered one, or nothing in its place, or it is that of a builder factory that opened no
builder. -/
theorem Attempted.of_unexplained {kind : EntryKind} {a : Attempt} (h : j.Attempted kind a)
    (hraised : raised? a = none)
    (hnone : ∀ d ∈ j.diagnostics kind a, d.kind.explains = false) :
    (∃ x, delivered? a = some x) ∨ kind = .builderFactory ∧
      ∃ f, j.type.strategy.builderFactory = some f ∧ f.start = .ok none := by
  cases h with
  | absent =>
    have hmiss := hnone (j.miss kind) List.mem_cons_self
    cases hmiss
  | declined hf hs => exact .inr ⟨rfl, _, hf, hs⟩
  | failed _ message log =>
    cases message with
    | error f => cases hraised
    | ok message =>
      have hfailure := hnone (j.failure kind message) List.mem_cons_self
      cases kind <;> cases hfailure
  | done _ x c log => exact .inl ⟨x, rfl⟩

/-- A build ends silently just if its builder delivers nothing, or no builder is opened and its
factory delivers nothing. -/
theorem endsSilently_iff :
    j.EndsSilently ↔ delivered? j.attemptBuilder = some .null ∨
      (∃ f, j.type.strategy.builderFactory = some f ∧ f.start = .ok none) ∧
        delivered? j.attemptFactory = some .null := by
  constructor
  · intro h
    cases h with
    | @builder f b fields hf hs hfields hx =>
      exact Or.inl (delivered?_attemptBuilder_iff.2 ⟨f, b, fields, hf, hs, hfields, hx⟩)
    | @factory f g xs hf hs hg hxs hx =>
      exact Or.inr ⟨⟨f, hf, hs⟩, delivered?_attemptFactory_iff.2 ⟨g, xs, hg, hxs, hx⟩⟩
  · rintro (hd | ⟨⟨f, hf, hs⟩, hd⟩)
    · obtain ⟨f, b, fields, hf, hs, hfields, hx⟩ := delivered?_attemptBuilder_iff.1 hd
      exact .builder hf hs hfields hx
    · obtain ⟨g, xs, hg, hxs, hx⟩ := delivered?_attemptFactory_iff.1 hd
      exact .factory hf hs hg hxs hx

/-- If nothing is said that explains the lack of an instance and the factory is tried, no builder
was opened, and what the result has is what the factory delivered. -/
theorem delivered?_attemptFactory_of_unexplained (hgoes : goesOn j.attemptBuilder = true)
    {r : BuildResult} (hrun : j.run.1 = .ok r)
    (hnone : ∀ d ∈ r.diagnostics, d.kind.explains = false) :
    (∃ f, j.type.strategy.builderFactory = some f ∧ f.start = .ok none) ∧
      ∃ x, delivered? j.attemptFactory = some x := by
  obtain ⟨hraised, hdelivered⟩ := Bool.and_eq_true_iff.1 hgoes
  rw [diagnostics_of_run hrun, attempts, if_pos hgoes] at hnone
  constructor
  · rcases j.attempted_attemptBuilder.of_unexplained (Option.isNone_iff_eq_none.1 hraised)
      fun d hd => hnone d (by simp [hd]) with ⟨x, hx⟩ | ⟨_, hopened⟩
    · rw [hx] at hdelivered
      cases hdelivered
    · exact hopened
  · have hraised' : raised? j.attemptFactory = none := by
      rw [run_of_goesOn hgoes] at hrun
      unfold second at hrun
      cases hr : raised? j.attemptFactory with
      | none => rfl
      | some f =>
        rw [hr] at hrun
        cases hrun
    rcases j.attempted_attemptFactory.of_unexplained hraised' fun d hd => hnone d (by simp [hd])
      with hx | ⟨hkind, _⟩
    · exact hx
    · cases hkind

/-- A build has a result without an instance and without a diagnostic that explains it just when it
ends silently. -/
theorem run_unexplained_iff (j : Job) :
    (∃ r, j.run.1 = .ok r ∧ r.ok = false ∧ ∀ d ∈ r.diagnostics, d.kind.explains = false) ↔
      j.EndsSilently := by
  have hleftovers : ∀ (c : Taken), ∀ d ∈ j.leftovers c, d.kind.explains = false :=
    fun _ _ hd =>
      DiagnosticKind.explains_eq_false_of_isUnused (Taken.isUnused_of_mem_leftovers hd)
  rw [endsSilently_iff]
  constructor
  · rintro ⟨r, hrun, hok, hnone⟩
    rcases attempt_cases j.attemptBuilder with ⟨f, hr⟩ | ⟨_, x, hd⟩ | ⟨hr, hd⟩
    · rw [run_of_raised hr] at hrun
      cases hrun
    · rw [run_of_delivered?_eq_some hd] at hrun
      cases hrun
      obtain rfl := BuildResult.ok_through_eq_false_iff.1 hok
      exact Or.inl hd
    · have hgoes : goesOn j.attemptBuilder = true := by rw [goesOn, hr, hd]; rfl
      obtain ⟨hopened, x, hd'⟩ := delivered?_attemptFactory_of_unexplained hgoes hrun hnone
      rw [run_of_delivered?_attemptFactory hgoes hd'] at hrun
      cases hrun
      obtain rfl := BuildResult.ok_through_eq_false_iff.1 hok
      exact Or.inr ⟨hopened, hd'⟩
  · rintro (hd | ⟨⟨f, hf, hs⟩, hd⟩)
    · obtain ⟨c, hc⟩ := j.attempted_attemptBuilder.diagnostics_eq hd
      exact ⟨_, run_of_delivered?_eq_some hd, rfl, by rw [hc]; exact hleftovers c⟩
    · have hdeclined := attemptBuilder_of_declined hf hs
      obtain ⟨c, hc⟩ := j.attempted_attemptFactory.diagnostics_eq hd
      have hgoes : goesOn j.attemptBuilder = true := by rw [hdeclined]; rfl
      have hrun := run_of_delivered?_attemptFactory hgoes hd
      rw [hdeclined, hc] at hrun
      exact ⟨_, hrun, rfl, hleftovers c⟩

/-- The job of building an element by a builder that makes nothing. -/
private def shell : Job :=
  ⟨⟨⟨0, "Shell", "plugins", []⟩, ⟨"Shell", "plugins", "shell", none, "shell", false, []⟩,
      ⟨some ⟨"builder", .ok (some ⟨"Builder", [], some fun _ => .ok .null⟩)⟩, none⟩⟩,
    ⟨"shell", [], none, .empty, []⟩, .null, ⟨[], .process []⟩, .standard, none, []⟩

/-- A build may have a result without an instance and without any diagnostic. -/
theorem not_forall_run_explained :
    ¬ ∀ (j : Job) (r : BuildResult), j.run.1 = .ok r → r.ok = false →
      ∃ d ∈ r.diagnostics, d.kind.explains = true := by
  intro h
  have hsilent : (shell.run.1.toOption.any fun r => !r.ok && r.diagnostics.isEmpty) = true := by
    decide +kernel
  cases hrun : shell.run.1 with
  | error f => rw [hrun] at hsilent; cases hsilent
  | ok r =>
    rw [hrun] at hsilent
    obtain ⟨hok, hnone⟩ := Bool.and_eq_true_iff.1 hsilent
    obtain ⟨d, hd, _⟩ := h shell r hrun (by simpa using hok)
    rw [List.isEmpty_iff.1 hnone] at hd
    cases hd

end Job

/-! ### Orders -/

/-- An order from which nothing is missing is carried out. It has no result just if something fails
with a fault that has no text, and then what forming this text fails with is handed on. Otherwise,
whatever visitors, builders and factories do, the result tells how the build ended. -/
theorem Order.job_failSoft (t : PluginType) (s : Services) (n : Node)
    (visitors : Option VisitorRegistry) (event : Option Event) (reserved : List String) :
    let j : Job :=
      ⟨t, n, s.configuration, s.sources, visitors.getD s.visitors, event, reserved⟩
    (⟨some t, some s, some n, visitors, event, reserved⟩ : Order).job = .ok j ∧
      (∀ failure, j.run.1 = .error failure ↔ j.EndsMutely failure) ∧
      ∀ r, j.run.1 = .ok r → j.FailSoft r := by
  intro j
  exact ⟨rfl, fun _ => Job.run_eq_error_iff_endsMutely, fun _ h => (Job.run_ending h).failSoft⟩

/-- A plugin type whose factory fails with a fault that has no text. -/
private def mime : PluginType :=
  ⟨⟨0, "Mime", "plugins", []⟩, ⟨"Mime", "plugins", "mime", none, "mime", false, []⟩,
    ⟨none, some ⟨"create", [], fun _ => .error (.mute (.said .type "no text"))⟩⟩⟩

/-- Not every order from which nothing is missing has a result. -/
theorem Order.not_forall_job_failSoft :
    ¬ ∀ (t : PluginType) (s : Services) (n : Node) (visitors : Option VisitorRegistry)
      (event : Option Event) (reserved : List String) (j : Job),
      (⟨some t, some s, some n, visitors, event, reserved⟩ : Order).job = .ok j →
        ∃ r, j.run.1 = .ok r := by
  intro h
  obtain ⟨r, hr⟩ := h mime ⟨.null, ⟨[], .process []⟩, .standard⟩ ⟨"mime", [], none, .empty, []⟩
    none none [] _ rfl
  have hraised : (Job.run ⟨mime, ⟨"mime", [], none, .empty, []⟩, .null, ⟨[], .process []⟩,
      .standard, none, []⟩).1.isOk = false := by
    decide +kernel
  change (Job.run ⟨mime, ⟨"mime", [], none, .empty, []⟩, .null, ⟨[], .process []⟩,
    .standard, none, []⟩).1 = .ok r at hr
  rw [hr] at hraised
  cases hraised

end ConfigAssembly
