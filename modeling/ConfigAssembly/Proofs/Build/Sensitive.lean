import Mathlib.Data.List.Forall2
import ConfigAssembly.Proofs.Binding.Discretion
import ConfigAssembly.Proofs.Build.Attempt

/-!
# What builds tell about sensitive values

Two builds of an element are compared that differ in the text of one attribute, where the
construction code does not fail and the results for the two texts correspond wherever the attribute
is taken. There are two ways in which the builds may report different things, and no others
(`run_withText_sensitive`):

* Neither text can be converted, and the messages of the failed attempts differ. These are messages
  of refused conversions, which quote the text, whatever the marker says.
* The attribute is taken for a marker that is not sensitive as well, as the two ways of construction
  have inputs of their own, and its trace shows the text. `Job.disclosed` are these records.

Both do occur (`not_forall_run_withText`).
-/

namespace ConfigAssembly

/-- Messages of failures correspond: they are the same, or both are those of refused conversions, if
refusals are allowed for. -/
def Matching (refusals : Prop) (m m' : Except Fault String) : Prop :=
  m = m' ∨ refusals ∧ ∃ e e' : ConversionError, m = .ok e.message ∧ m' = .ok e'.message

/-- Attempts correspond, given what is disclosed in each: they end in the same way, and what is
reported before their end is the same just when the disclosures are. Messages of refused conversions
may differ, and what is delivered. -/
inductive Attempt.Alike (refusals : Prop) : Attempt → Attempt → Log → Log → Prop
  | absent : Alike refusals .absent .absent [] []
  | declined : Alike refusals .declined .declined [] []
  | failed {m m' : Except Fault String} (h : Matching refusals m m') {log log' d d' : Log}
    (hlog : Disclosing log log' d d') : Alike refusals (.failed m log) (.failed m' log') d d'
  | done (x x' : Value) (leftovers : List Diagnostic) {log log' d d' : Log}
    (hlog : Disclosing log log' d d') :
    Alike refusals (.done x leftovers log) (.done x' leftovers log') d d'

/-- An attempt corresponds to itself. -/
theorem Attempt.Alike.refl {refusals : Prop} (a : Attempt) : a.Alike refusals a [] [] := by
  cases a with
  | absent => exact .absent
  | declined => exact .declined
  | failed m log => exact .failed (Or.inl rfl) (.same log)
  | done x leftovers log => exact .done x x leftovers (.same log)

/-- The message of an attempt that failed. -/
def Attempt.message? : Attempt → Option (Except Fault String)
  | .failed message _ => some message
  | _ => none

/-- Attempts with values that are bound alike correspond, if no instance fails to be made. -/
theorem Alike.attempt {α : Type} {refusals : Prop} {o o' : Outcome α} {d d' : Log}
    (h : Alike refusals o o' d d') {make : α → Except Fault Value}
    (hm : ∀ x, o.result = .ok x → ∃ y, make x = .ok y)
    (hm' : ∀ x, o'.result = .ok x → ∃ y, make x = .ok y) (leftovers : Taken → List Diagnostic) :
    (Attempt.ofOutcome o make leftovers).Alike refusals (Attempt.ofOutcome o' make leftovers) d
      d' := by
  obtain ⟨r, c, log⟩ := o
  obtain ⟨r', c', log'⟩ := o'
  obtain ⟨htaken, hresult, hlog⟩ := h
  obtain rfl : c = c' := htaken
  cases hresult with
  | ok x x' =>
    obtain ⟨y, hy⟩ := hm x rfl
    obtain ⟨y', hy'⟩ := hm' x' rfl
    simp only [Attempt.ofOutcome, hy, hy']
    exact .done y y' (leftovers c) hlog
  | same e => exact .failed (Or.inl rfl) hlog
  | refused h e e' => exact .failed (Or.inr ⟨h, e, e', rfl, rfl⟩) hlog

namespace Job

/-- The messages of the attempts that failed. -/
def failures (j : Job) : List (Except Fault String) := j.attempts.filterMap (·.2.message?)

/-- The job of building an instance of the element with a text as the value of an attribute. -/
def withText (j : Job) (key s : String) : Job := { j with node := j.node.withText key s }

/-- What the attempt by a builder discloses about an attribute. -/
def disclosedByBuilder (j : Job) (key : String) : Log :=
  match j.type.strategy.builderFactory with
  | none => []
  | some f =>
    match f.start with
    | .ok (some b) => j.binder.disclosed key b.inputs j.taken
    | _ => []

/-- What the attempt by a factory discloses about an attribute. -/
def disclosedByFactory (j : Job) (key : String) : Log :=
  match j.type.strategy.factory with
  | some f => j.binder.disclosed key f.inputs j.taken
  | none => []

/-- What a build discloses about an attribute: the records of the visits that take it for markers
that are not sensitive. -/
def disclosed (j : Job) (key : String) : Log :=
  j.disclosedByBuilder key ++
    if goesOn j.attemptBuilder then j.disclosedByFactory key else []

section Reports

variable (j : Job) (key s : String) (kind : EntryKind)

/-- What an attempt reports at its end does not depend on the values of attributes. -/
theorem records_withText (a : Attempt) : (j.withText key s).records kind a = j.records kind a := by
  rcases a with _ | _ | ⟨_ | _, _⟩ | _ <;> cases kind <;> rfl

/-- Nor do its diagnostics. -/
theorem diagnostics_withText (a : Attempt) :
    (j.withText key s).diagnostics kind a = j.diagnostics kind a := by
  rcases a with _ | _ | ⟨_ | _, _⟩ | _ <;> cases kind <;> rfl

/-- And so are their records. -/
theorem record_failure_inj {m m' : String} :
    (j.failure kind m).record = (j.failure kind m').record ↔ m = m' := by
  constructor
  · intro h
    have hmessage : (j.failure kind m).message = (j.failure kind m').message :=
      congrArg Record.message h
    cases kind <;> simpa [failure, String.append_right_inj] using hmessage
  · rintro rfl
    rfl

variable {kind} {refusals : Prop} {a a' : Attempt} {d d' : Log}

/-- Corresponding attempts report the same just when their messages are the same and they disclose
the same. -/
theorem sameWhen_records (kind : EntryKind) (h : a.Alike refusals a' d d') :
    SameWhen (a.message? = a'.message? ∧ d = d') (j.records kind a) (j.records kind a') := by
  cases h with
  | absent | declined => exact (SameWhen.refl _).of_iff (by simp)
  | done x x' leftovers hlog =>
    exact (hlog.report.append (.refl _)).of_iff (by simp [Attempt.message?])
  | @failed m m' hmatching log log' _ _ hlog =>
    have hrecords : ∀ (m : String) (log : Log), j.records kind (.failed (.ok m) log) =
        log ++ [⟨.debug, "Exception raised while building " ++ j.node.name, true⟩,
          (j.failure kind m).record] := fun _ _ => rfl
    rcases hmatching with rfl | ⟨_, e, e', rfl, rfl⟩
    · cases m with
      | error f => exact hlog.report.of_iff (by simp [Attempt.message?])
      | ok m =>
        rw [hrecords, hrecords]
        exact (hlog.report.append (.refl _)).of_iff (by simp [Attempt.message?])
    · rw [hrecords, hrecords]
      have hend : ∀ r : Record, SameWhen (e.message = e'.message)
          [r, (j.failure kind e.message).record] [r, (j.failure kind e'.message).record] := by
        intro r
        refine ⟨by simp only [List.length_cons], ?_⟩
        simp only [List.cons.injEq, true_and, and_true, record_failure_inj]
      exact (hlog.report.append (hend _)).of_iff (by simp [Attempt.message?, and_comm])

/-- They have the same diagnostics if their messages are the same. -/
theorem diagnostics_eq (h : a.Alike refusals a' d d') (hm : a.message? = a'.message?) :
    j.diagnostics kind a = j.diagnostics kind a' := by
  cases h with
  | absent | declined | done => rfl
  | @failed m m' _ log log' _ _ _ =>
    obtain rfl : m = m' := Option.some.inj hm
    cases m <;> rfl

/-- They hand on the same fault, or none. -/
theorem raised_eq (h : a.Alike refusals a' d d') : raised? a = raised? a' := by
  cases h with
  | absent | declined | done => rfl
  | @failed m m' h _ _ _ _ _ =>
    rcases h with rfl | ⟨_, e, e', rfl, rfl⟩
    · cases m <;> rfl
    · rfl

/-- Both are followed by another attempt, or neither is. -/
theorem goesOn_eq (h : a.Alike refusals a' d d') : goesOn a = goesOn a' := by
  rw [goesOn, goesOn, raised_eq h]
  cases h <;> rfl

end Reports

/-! ### Two builds -/

/-- The attempts of two builds correspond one by one, given what is disclosed in all of them. -/
inductive AlikeAll (refusals : Prop) :
    List (EntryKind × Attempt) → List (EntryKind × Attempt) → Log → Log → Prop
  | nil : AlikeAll refusals [] [] [] []
  | cons (kind : EntryKind) {a a' : Attempt} {d d' e e' : Log} {as as' : List (EntryKind × Attempt)}
    (h : a.Alike refusals a' d d') (hs : AlikeAll refusals as as' e e') :
    AlikeAll refusals ((kind, a) :: as) ((kind, a') :: as') (d ++ e) (d' ++ e')

/-- As much is disclosed in the one attempt as in the other. -/
theorem length_disclosures {refusals : Prop} {a a' : Attempt}
    {d d' : Log} (h : a.Alike refusals a' d d') : d.length = d'.length := by
  cases h with
  | absent | declined => rfl
  | failed _ hlog => exact hlog.length
  | done _ _ _ hlog => exact hlog.length

namespace AlikeAll

variable {refusals : Prop} {as as' : List (EntryKind × Attempt)} {d d' : Log}

/-- What the attempts report is the same just when the messages of those that failed are the same
and they disclose the same. -/
theorem sameWhen_records (j : Job) (h : AlikeAll refusals as as' d d') :
    SameWhen
      (as.filterMap (·.2.message?) = as'.filterMap (·.2.message?) ∧ d = d')
      (as.flatMap fun a => j.records a.1 a.2) (as'.flatMap fun a => j.records a.1 a.2) := by
  induction h with
  | nil => exact (SameWhen.refl []).of_iff (by simp)
  | @cons kind a a' d d' e e' as as' h hs ih =>
    refine ((j.sameWhen_records kind h).append ih).of_iff ?_
    have happend : d ++ e = d' ++ e' ↔ d = d' ∧ e = e' :=
      ⟨fun he => List.append_inj he (length_disclosures h), fun ⟨hd, he⟩ => by rw [hd, he]⟩
    rw [happend]
    cases h <;> simp [Attempt.message?] <;> tauto

/-- The messages of the attempts that failed correspond. -/
theorem matching (h : AlikeAll refusals as as' d d') :
    List.Forall₂ (Matching refusals) (as.filterMap (·.2.message?))
      (as'.filterMap (·.2.message?)) := by
  induction h with
  | nil => exact .nil
  | cons kind h hs ih =>
    cases h with
    | absent | declined | done => exact ih
    | failed h hlog => exact .cons h ih

/-- The same fault is handed on, or none. -/
theorem raisedBy_eq (h : AlikeAll refusals as as' d d') : raisedBy as = raisedBy as' := by
  induction h with
  | nil => rfl
  | cons kind h hs ih =>
    unfold raisedBy at ih ⊢
    rw [List.findSome?_cons, List.findSome?_cons, raised_eq h, ih]

/-- The diagnostics are the same if the messages are. -/
theorem diagnostics_eq (j : Job) (h : AlikeAll refusals as as' d d')
    (hm : as.filterMap (·.2.message?) = as'.filterMap (·.2.message?)) :
    (as.flatMap fun a => j.diagnostics a.1 a.2) = as'.flatMap fun a => j.diagnostics a.1 a.2 := by
  induction h with
  | nil => rfl
  | @cons kind a a' d d' e e' as as' h hs ih =>
    obtain ⟨hhead, htail⟩ : a.message? = a'.message? ∧
        as.filterMap (·.2.message?) = as'.filterMap (·.2.message?) := by
      cases h <;> simpa [Attempt.message?] using hm
    rw [List.flatMap_cons, List.flatMap_cons, j.diagnostics_eq h hhead, ih htail]

end AlikeAll

section Runs

variable {j : Job} {key s s' : String} {refusals : Prop}

/-- In the attempts that a build makes, the results for the two texts correspond wherever the
attribute is taken. -/
structure MatchedTexts (j : Job) (key s s' : String) (refusals : Prop) : Prop where
  builder : ∀ f b, j.type.strategy.builderFactory = some f → f.start = .ok (some b) →
    j.binder.MatchedInputs key s s' refusals b.inputs j.taken
  factory : ∀ f, goesOn (j.withText key s).attemptBuilder = true →
    j.type.strategy.factory = some f →
    j.binder.MatchedInputs key s s' refusals f.inputs j.taken

/-- The construction code of the plugin does not fail on the values that a build passes to it. -/
structure Constructs (j : Job) : Prop where
  builder : ∀ f b fields, j.type.strategy.builderFactory = some f → f.start = .ok (some b) →
    (j.binder.inject b.inputs b.initial j.taken).result = .ok fields → ∃ x, b.finish fields = .ok x
  factory : ∀ f xs, goesOn j.attemptBuilder = true → j.type.strategy.factory = some f →
    (j.binder.arguments f.inputs j.taken).result = .ok xs → ∃ x, f.create xs = .ok x

/-- What is left over does not depend on the text. -/
theorem leftovers_withText (j : Job) (key s : String) :
    (j.withText key s).leftovers = j.leftovers :=
  funext fun c => c.leftovers_withText j.node key s j.type.deferChildren

/-- The attempts by a builder correspond. -/
theorem alike_attemptBuilder (hv : j.visitors.Discreet) (hs : j.sources.Textual)
    (hm : j.MatchedTexts key s s' refusals) (hc : (j.withText key s).Constructs)
    (hc' : (j.withText key s').Constructs) :
    (j.withText key s).attemptBuilder.Alike refusals (j.withText key s').attemptBuilder
      ((j.withText key s).disclosedByBuilder key) ((j.withText key s').disclosedByBuilder key) := by
  have hsame : ∀ t, (j.withText key t).type = j.type := fun _ => rfl
  rcases hf : j.type.strategy.builderFactory with _ | f
  · rw [attemptBuilder_of_absent (hsame s ▸ hf), attemptBuilder_of_absent (hsame s' ▸ hf),
      disclosedByBuilder, disclosedByBuilder, hsame, hsame, hf]
    exact .absent
  · rcases hstart : f.start with e | _ | b
    · rw [attemptBuilder_of_unopened (hsame s ▸ hf) hstart,
        attemptBuilder_of_unopened (hsame s' ▸ hf) hstart, disclosedByBuilder, disclosedByBuilder,
        hsame, hsame, hf]
      dsimp only
      rw [hstart]
      exact .refl _
    · rw [attemptBuilder_of_declined (hsame s ▸ hf) hstart,
        attemptBuilder_of_declined (hsame s' ▸ hf) hstart, disclosedByBuilder, disclosedByBuilder,
        hsame, hsame, hf]
      dsimp only
      rw [hstart]
      exact .declined
    · rw [attemptBuilder_of_opened (hsame s ▸ hf) hstart,
        attemptBuilder_of_opened (hsame s' ▸ hf) hstart, runBuilder_eq, runBuilder_eq,
        leftovers_withText, leftovers_withText, disclosedByBuilder, disclosedByBuilder, hsame,
        hsame, hf]
      dsimp only
      rw [hstart]
      exact (Binder.alike_inject hv hs (hm.builder f b hf hstart) b.initial b.initial).attempt
        (fun fields => hc.builder f b fields hf hstart)
        (fun fields => hc'.builder f b fields hf hstart) j.leftovers

/-- The attempts by a factory correspond. -/
theorem alike_attemptFactory (hv : j.visitors.Discreet) (hs : j.sources.Textual)
    (hm : j.MatchedTexts key s s' refusals) (hc : (j.withText key s).Constructs)
    (hc' : (j.withText key s').Constructs)
    (hgo : goesOn (j.withText key s).attemptBuilder = true)
    (hgo' : goesOn (j.withText key s').attemptBuilder = true) :
    (j.withText key s).attemptFactory.Alike refusals (j.withText key s').attemptFactory
      ((j.withText key s).disclosedByFactory key) ((j.withText key s').disclosedByFactory key) := by
  have hsame : ∀ t, (j.withText key t).type = j.type := fun _ => rfl
  rcases hf : j.type.strategy.factory with _ | f
  · rw [attemptFactory_of_absent (hsame s ▸ hf), attemptFactory_of_absent (hsame s' ▸ hf),
      disclosedByFactory, disclosedByFactory, hsame, hsame, hf]
    exact .absent
  · rw [attemptFactory_eq (hsame s ▸ hf), attemptFactory_eq (hsame s' ▸ hf), leftovers_withText,
      leftovers_withText, disclosedByFactory, disclosedByFactory, hsame, hsame, hf]
    exact (Binder.alike_arguments hv hs (hm.factory f hgo hf)).attempt
      (fun xs => hc.factory f xs hgo hf) (fun xs => hc'.factory f xs hgo' hf) j.leftovers

/-- The attempts that two builds make correspond. -/
theorem alike_attempts (hv : j.visitors.Discreet) (hs : j.sources.Textual)
    (hm : j.MatchedTexts key s s' refusals) (hc : (j.withText key s).Constructs)
    (hc' : (j.withText key s').Constructs) :
    AlikeAll refusals (j.withText key s).attempts (j.withText key s').attempts
      ((j.withText key s).disclosed key) ((j.withText key s').disclosed key) := by
  have hbuilder := alike_attemptBuilder hv hs hm hc hc'
  have hgoesOn := goesOn_eq hbuilder
  unfold attempts disclosed
  refine .cons _ hbuilder ?_
  cases hgo : goesOn (j.withText key s).attemptBuilder with
  | false =>
    rw [← hgoesOn, hgo]
    exact .nil
  | true =>
    have hgo' := hgoesOn.symm.trans hgo
    rw [hgo']
    have hfactory := alike_attemptFactory hv hs hm hc hc' hgo hgo'
    simpa using AlikeAll.cons .factory hfactory .nil

/-- The records of two builds are the same just when the messages of their failed attempts are and
they disclose the same. -/
theorem run_snd_eq_iff (hv : j.visitors.Discreet) (hs : j.sources.Textual)
    (hm : j.MatchedTexts key s s' refusals) (hc : (j.withText key s).Constructs)
    (hc' : (j.withText key s').Constructs) :
    (j.withText key s).run.2 = (j.withText key s').run.2 ↔
      (j.withText key s).failures = (j.withText key s').failures ∧
        (j.withText key s).disclosed key = (j.withText key s').disclosed key := by
  rw [(run_reports _).1, (run_reports _).1]
  simp only [records_withText]
  exact ((alike_attempts hv hs hm hc hc').sameWhen_records j).eq_iff

/-- The diagnostics of two builds are the same if the messages of their failed attempts are. -/
theorem run_diagnostics_eq (hv : j.visitors.Discreet) (hs : j.sources.Textual)
    (hm : j.MatchedTexts key s s' refusals) (hc : (j.withText key s).Constructs)
    (hc' : (j.withText key s').Constructs)
    (h : (j.withText key s).failures = (j.withText key s').failures) :
    (j.withText key s).run.1.map (·.diagnostics) =
      (j.withText key s').run.1.map (·.diagnostics) := by
  have halike := alike_attempts hv hs hm hc hc'
  rw [(run_reports _).2, (run_reports _).2, halike.raisedBy_eq]
  simp only [diagnostics_withText, halike.diagnostics_eq j h]

end Runs

/-- Two builds of an element with different texts of one attribute, where the results for the two
texts correspond wherever the attribute is taken (both are converted, or both are refused) and the
construction code does not fail: they report the same, records and diagnostics, just when the
messages of their failed attempts are the same and they disclose the same. Messages that differ are
those of two refused conversions, and where no text is refused none differ. The sources of every
configuration are textual. -/
theorem run_withText_sensitive (j : Job) (key s s' : String) (hv : j.visitors.Discreet)
    (hs : j.sources.Textual) (hm : j.MatchedTexts key s s' True)
    (hc : (j.withText key s).Constructs) (hc' : (j.withText key s').Constructs) :
    ((j.withText key s).run.2 = (j.withText key s').run.2 ∧
        (j.withText key s).run.1.map (·.diagnostics) =
          (j.withText key s').run.1.map (·.diagnostics) ↔
      (j.withText key s).failures = (j.withText key s').failures ∧
        (j.withText key s).disclosed key = (j.withText key s').disclosed key) ∧
    List.Forall₂
      (fun m m' => m = m' ∨ ∃ e e' : ConversionError, m = .ok e.message ∧ m' = .ok e'.message)
      (j.withText key s).failures (j.withText key s').failures ∧
    (j.MatchedTexts key s s' False →
      (j.withText key s).failures = (j.withText key s').failures) := by
  have hlog := run_snd_eq_iff hv hs hm hc hc'
  refine ⟨⟨fun h => hlog.1 h.1, fun h => ⟨hlog.2 h, ?_⟩⟩, ?_, fun hm' => ?_⟩
  · exact run_diagnostics_eq hv hs hm hc hc' h.1
  · exact (alike_attempts hv hs hm hc hc').matching.imp fun _ _ h => h.imp_right And.right
  · have hmatching := (alike_attempts hv hs hm' hc hc').matching
    rw [failures, failures, ← List.forall₂_eq_eq_eq]
    exact hmatching.imp fun _ _ h => h.resolve_right And.left

/-- A marker of an attribute, which says whether it is sensitive. -/
private def openMarker (sensitive : Bool) : Marker :=
  ⟨.attribute .null false sensitive true, some "open"⟩

/-- An input for a truth value. -/
private def openInput (sensitive : Bool) (position : Option Nat) : Input :=
  ⟨"open", [openMarker sensitive], [], .basic .bool, position⟩

/-- A marker of an attribute that must be there. -/
private def codeMarker : Marker := ⟨.attribute .null true true true, some "code"⟩

/-- A builder with two fields. -/
private def lockBuilder : BuilderClass :=
  ⟨"Lock", [⟨"open", some (.annotated (.type (.basic .bool)) [.marker (openMarker true)]), none⟩,
    ⟨"code", some (.annotated (.type (.basic .str)) [.marker codeMarker]), none⟩],
    some fun _ => .ok .null⟩

/-- Building by a factory with a sensitive input. -/
private def closed : Strategy :=
  ⟨none, some ⟨"create", [openInput true (some 0)], fun xs => .ok (.list xs)⟩⟩

/-- Building by a builder with a sensitive input and one that must be there, or else by a factory
with an input of the same attribute that is not sensitive. -/
private def ajar : Strategy :=
  ⟨some ⟨"builder", .ok (some lockBuilder)⟩,
    some ⟨"create", [openInput false (some 0)], fun xs => .ok (.list xs)⟩⟩

/-- The job of building an element with one attribute. -/
private def vault (strategy : Strategy) : Job :=
  ⟨⟨⟨0, "Vault", "plugins", []⟩, ⟨"Vault", "plugins", "vault", none, "vault", false, []⟩, strategy⟩,
    ⟨"vault", [("open", .str "no")], none, .empty, []⟩, .null, ⟨[], .process []⟩, .standard, none,
    []⟩

/-- The factory does not fail. -/
private theorem constructs_closed (s : String) : ((vault closed).withText "open" s).Constructs where
  builder _ _ _ hf := by cases hf
  factory f xs _ hf _ := by
    cases hf
    exact ⟨_, rfl⟩

/-- The builder is not asked to make an instance, as a value is missing. -/
private theorem constructs_ajar {s : String}
    (h : (((vault ajar).withText "open" s).binder.inject lockBuilder.inputs lockBuilder.initial
      ((vault ajar).withText "open" s).taken).result.isOk = false) :
    ((vault ajar).withText "open" s).Constructs where
  builder f b fields hf hstart hfields := by
    cases hf
    cases hstart
    rw [hfields] at h
    cases h
  factory f xs _ hf _ := by
    cases hf
    exact ⟨_, rfl⟩

/-- No variables are given in the place of those of the process. -/
private theorem textual_vault (strategy : Strategy) : (vault strategy).sources.Textual :=
  Environment.textual_process []

/-- The results for two texts correspond if they do where a marker of the attribute is visited. -/
private theorem matchedInputs_vault {strategy : Strategy} {sensitive : Bool} {position : Option Nat}
    {s s' : String} {refusals : Prop}
    (h : Matched refusals
      (Visitor.ofAttribute.visit (((vault strategy).binder.occasion (openInput sensitive position)
        (openMarker sensitive)).withText "open" s) (vault strategy).taken).result
      (Visitor.ofAttribute.visit (((vault strategy).binder.occasion (openInput sensitive position)
        (openMarker sensitive)).withText "open" s') (vault strategy).taken).result)
    {is : List Input}
    (his : ∀ x, (((vault strategy).binder.withText "open" s).resolve (openInput sensitive position)
        (vault strategy).taken).result = .ok x →
      (vault strategy).binder.MatchedInputs "open" s s' refusals is
        (((vault strategy).binder.withText "open" s).resolve (openInput sensitive position)
          (vault strategy).taken).taken) :
    (vault strategy).binder.MatchedInputs "open" s s' refusals (openInput sensitive position :: is)
      (vault strategy).taken := by
  refine ⟨?_, his⟩
  have hfind : (vault strategy).binder.visitors.find? (openMarker sensitive).kind =
      some .ofAttribute := by cases sensitive <;> rfl
  change (vault strategy).binder.MatchedMarkers "open" s s' refusals (openInput sensitive position)
    [openMarker sensitive] (vault strategy).taken
  rw [Binder.MatchedMarkers, hfind]
  exact ⟨fun _ => h, fun _ _ => trivial⟩

/-- So the results correspond in the only attempt that the factory makes. -/
private theorem matchedTexts_closed {s s' : String} {refusals : Prop}
    (h : Matched refusals
      (Visitor.ofAttribute.visit (((vault closed).binder.occasion (openInput true (some 0))
        (openMarker true)).withText "open" s) (vault closed).taken).result
      (Visitor.ofAttribute.visit (((vault closed).binder.occasion (openInput true (some 0))
        (openMarker true)).withText "open" s') (vault closed).taken).result) :
    (vault closed).MatchedTexts "open" s s' refusals where
  builder _ _ hf := by cases hf
  factory f _ hf := by
    cases hf
    exact matchedInputs_vault h fun _ _ => trivial

/-- Texts that can be converted are not told apart by sensitive inputs. -/
theorem run_withText_converted :
    ((vault closed).withText "open" "yes").run.2 = ((vault closed).withText "open" "no").run.2 ∧
      ((vault closed).withText "open" "yes").run.1.map (·.diagnostics) =
        ((vault closed).withText "open" "no").run.1.map (·.diagnostics) := by
  have hmatched : ∀ {refusals : Prop}, (vault closed).MatchedTexts "open" "yes" "no" refusals :=
    fun {refusals} => matchedTexts_closed (.of_isOk (by decide +kernel) (by decide +kernel))
  obtain ⟨hreports, _, hfailures⟩ := run_withText_sensitive (vault closed) "open" "yes" "no"
    VisitorRegistry.discreet_standard (textual_vault closed) hmatched
    (constructs_closed "yes") (constructs_closed "no")
  exact hreports.2 ⟨hfailures hmatched, by decide +kernel⟩

/-- Two texts that both are truth values are converted in both attempts. -/
private theorem matchedTexts_ajar : (vault ajar).MatchedTexts "open" "yes" "no" False where
  builder f b hf hstart := by
    cases hf
    cases hstart
    refine matchedInputs_vault (.of_isOk (by decide +kernel) (by decide +kernel)) fun _ _ => ?_
    refine ⟨?_, fun _ _ => trivial⟩
    have hfind : (vault ajar).binder.visitors.find? codeMarker.kind = some .ofAttribute := rfl
    change (vault ajar).binder.MatchedMarkers "open" "yes" "no" False _ [codeMarker] _
    rw [Binder.MatchedMarkers, hfind]
    refine ⟨fun ht => absurd ht (by decide +kernel), fun _ _ => trivial⟩
  factory f _ hf := by
    cases hf
    exact matchedInputs_vault (.of_isOk (by decide +kernel) (by decide +kernel)) fun _ _ => trivial

/-- Texts are told apart all the same: texts that cannot be converted are quoted in the diagnostics,
and a text that can be is traced when the other way of construction takes the attribute for an input
that is not sensitive. -/
theorem not_forall_run_withText :
    (¬ ∀ (j : Job) (key s s' : String), j.visitors.Discreet → j.sources.Textual →
      j.MatchedTexts key s s' True → (j.withText key s).Constructs →
      (j.withText key s').Constructs →
      (j.withText key s).disclosed key = (j.withText key s').disclosed key →
      (j.withText key s).run.1.map (·.diagnostics) =
        (j.withText key s').run.1.map (·.diagnostics)) ∧
    ¬ ∀ (j : Job) (key s s' : String), j.visitors.Discreet → j.sources.Textual →
      j.MatchedTexts key s s' False → (j.withText key s).Constructs →
      (j.withText key s').Constructs →
      (j.withText key s).run.2 = (j.withText key s').run.2 := by
  constructor
  · intro h
    have hmatched : (vault closed).MatchedTexts "open" "ajar" "shut" True :=
      matchedTexts_closed (.of_isRefusal trivial (by decide +kernel) (by decide +kernel))
    have hsame := h (vault closed) "open" "ajar" "shut" VisitorRegistry.discreet_standard
      (textual_vault closed) hmatched (constructs_closed "ajar")
      (constructs_closed "shut") (by decide +kernel)
    have hmessages := congrArg (Except.map (List.map Diagnostic.message)) hsame
    revert hmessages
    decide +kernel
  · intro h
    have hsame := h (vault ajar) "open" "yes" "no" VisitorRegistry.discreet_standard
      (textual_vault ajar) matchedTexts_ajar (constructs_ajar (by decide +kernel))
      (constructs_ajar (by decide +kernel))
    revert hsame
    decide +kernel

end Job
end ConfigAssembly
