import ConfigAssembly.Proofs.Binding.Sequence
import ConfigAssembly.Proofs.Binding.Visits
import ConfigAssembly.Proofs.Build.Protocol
import ConfigAssembly.Proofs.Taken.Spelling

/-!
# Building an instance of a respelt element

A visitor that does not care about spelling delivers the same from a respelt element and takes what
corresponds (`Visitor.CaseBlind`); it may say in other words what is wrong, but not fail to say it.
The built-in visitors are such, except for those that deliver the element itself or the
configuration (`Visitor.caseBlind_of_find?_standard`). If the visitors that bind the inputs of a
plugin are such, inputs have the same values, and a build comes to the same but for the words of its
diagnostics (`Job.outline_run_onto`).
-/

namespace ConfigAssembly

/-! ### Outcomes -/

/-- The fault that saying what is wrong with an input fails with, if it fails. -/
def InputError.mute? (e : InputError) : Option Fault :=
  match e.message with
  | .ok _ => none
  | .error f => some f

/-- A result without the words in which an error is said. -/
def wordless {α : Type} (r : Except InputError α) : Except (Option Fault) α := r.mapError (·.mute?)

/-- The same values, or errors in both cases, and what is taken corresponds. -/
structure Outcome.Corresponds {α : Type} (n n' : Node) (o o' : Outcome α) : Prop where
  result : wordless o.result = wordless o'.result
  taken : Taken.Corresponds n n' o.taken o'.taken

/-- Errors say no more as a result of another type. -/
theorem wordless_error {α β : Type} {e e' : InputError}
    (h : wordless (.error e : Except InputError α) = wordless (.error e')) :
    wordless (.error e : Except InputError β) = wordless (.error e') :=
  congrArg Except.error (Except.error.inj h)

namespace Outcome.Corresponds

variable {α β : Type} {n n' : Node} {o o' : Outcome α}

/-- What goes on from corresponding outcomes in corresponding ways comes to corresponding ones. -/
theorem bind {k k' : α → Taken → Outcome β} (h : o.Corresponds n n' o')
    (hk : ∀ x c c', Taken.Corresponds n n' c c' → (k x c).Corresponds n n' (k' x c')) :
    (o.bind k).Corresponds n n' (o'.bind k') := by
  obtain ⟨r, c, log⟩ := o
  obtain ⟨r', c', log'⟩ := o'
  cases r with
  | error e =>
    cases r' with
    | error e' => exact ⟨wordless_error h.result, h.taken⟩
    | ok x' => cases h.result
  | ok x =>
    cases r' with
    | error e' => cases h.result
    | ok x' =>
      obtain rfl : x = x' := Except.ok.inj h.result
      have hx := hk x c c' h.taken
      exact ⟨hx.result, hx.taken⟩

/-- The values of corresponding outcomes may be mapped. -/
theorem map (f : α → β) (h : o.Corresponds n n' o') : (o.map f).Corresponds n n' (o'.map f) where
  result := by
    have hmap : ∀ r : Except InputError α, wordless (r.map f) = (wordless r).map f := by
      rintro (_ | _) <;> rfl
    rw [Outcome.map, Outcome.map, hmap, hmap, h.result]
  taken := h.taken

end Outcome.Corresponds

/-! ### Visitors -/

namespace Visit

/-- The visit made to another element, in a configuration of another name. -/
def onto (v : Visit) (n : Node) (configuration : Value) : Visit :=
  { v with node := n, configuration := configuration }

section

variable {v : Visit} {n' : Node} {c c' : Taken}

/-- The attribute that is found has the same value. -/
theorem takeAttribute_onto (hn : Respelt v.node n') (hc : Taken.Corresponds v.node n' c c')
    (k : Value) :
    (v.takeAttribute c).1 = ((v.onto n' k).takeAttribute c').1 ∧
      Taken.Corresponds v.node n' (v.takeAttribute c).2 ((v.onto n' k).takeAttribute c').2 := by
  have hvalue : ∀ {o o'}, Option.Rel (Paired v.node n') o o' → o.map Prod.snd = o'.map Prod.snd :=
    map_eq_of_rel fun a a' ha => (hn.respeltKey ha).2
  unfold takeAttribute
  cases hname : v.marker.name with
  | some name =>
    obtain ⟨hfound, htaken⟩ := hc.takeAttribute hn (v.aliases ++ [name])
    simp only [onto, hname]
    exact ⟨congrArg Except.ok (hvalue hfound), htaken⟩
  | none =>
    have htake := hc.takeAttribute hn v.aliases
    simp only [onto, hname]
    generalize c.takeAttribute v.node v.aliases = p, c'.takeAttribute n' v.aliases = p' at htake
    obtain ⟨o, d⟩ := p
    obtain ⟨o', d'⟩ := p'
    obtain ⟨hfound, htaken⟩ := htake
    have hsame := hvalue hfound
    cases hfound with
    | none => exact ⟨rfl, htaken⟩
    | some ha => exact ⟨congrArg Except.ok hsame, htaken⟩

/-- The children that are found have the same instances. -/
theorem takeChildren_onto (hn : Respelt v.node n') (hc : Taken.Corresponds v.node n' c c')
    (k : Value) (firstOnly : Bool) :
    (v.takeChildren c firstOnly).1.map (List.map Node.built) =
        ((v.onto n' k).takeChildren c' firstOnly).1.map (List.map Node.built) ∧
      Taken.Corresponds v.node n' (v.takeChildren c firstOnly).2
        ((v.onto n' k).takeChildren c' firstOnly).2 := by
  have hbuilt : ∀ {es es' : List (Node × Nat)}, List.Forall₂ Taken.Corresponds.SamePlace es es' →
      (es.map Prod.fst).map Node.built = (es'.map Prod.fst).map Node.built := by
    intro es es' hes
    rw [List.map_map, List.map_map]
    exact map_eq_of_forall₂ (fun e e' he => congrArg Slots.built he.1.slot) hes
  unfold takeChildren
  cases hname : v.marker.name with
  | some name =>
    obtain ⟨hfound, htaken⟩ := hc.takeChildren hn (v.aliases ++ [name]) firstOnly
    simp only [onto, hname]
    exact ⟨congrArg Except.ok (hbuilt hfound), htaken⟩
  | none =>
    have htake := hc.takeChildren hn v.aliases firstOnly
    simp only [onto, hname]
    generalize c.takeChildren v.node v.aliases firstOnly = p,
      c'.takeChildren n' v.aliases firstOnly = p' at htake
    obtain ⟨es, d⟩ := p
    obtain ⟨es', d'⟩ := p'
    obtain ⟨hfound, htaken⟩ := htake
    have hsame := hbuilt hfound
    cases hfound with
    | nil =>
      have hempty : (d.freeChildren v.node).isEmpty = (d'.freeChildren n').isEmpty :=
        isEmpty_eq_of_forall₂ (htaken.freeChildren hn)
      refine ⟨?_, htaken⟩
      dsimp only
      rw [hempty]
      rfl
    | cons => exact ⟨congrArg Except.ok hsame, htaken⟩

/-- What is said about a missing value does not matter to whether one is missing. -/
theorem wordless_demand (v : Visit) (x : Value) {e e' : InputError} (h : e.mute? = e'.mute?) :
    wordless (v.demand x e) = wordless (v.demand x e') := by
  unfold demand
  split
  · cases v.need "required" v.marker.required? with
    | error f => rfl
    | ok required =>
      cases required with
      | true => exact congrArg Except.error h
      | false => rfl
  · rfl

end

end Visit

/-- A visitor does the same at a respelt element, whatever the name of the configuration is. -/
def Visitor.CaseBlind (d : Visitor) : Prop :=
  ∀ (v : Visit) (n' : Node) (k : Value) (c c' : Taken), Respelt v.node n' →
    Taken.Corresponds v.node n' c c' →
      (d.visit v c).Corresponds v.node n' (d.visit (v.onto n' k) c')

namespace Visitor

/-- The visitor of attributes does not care about spelling. -/
theorem caseBlind_ofAttribute : ofAttribute.CaseBlind := by
  intro v n' k c c' hn hc
  obtain ⟨hfound, htaken⟩ := Visit.takeAttribute_onto hn hc k
  unfold ofAttribute
  dsimp only
  generalize v.takeAttribute c = p, (v.onto n' k).takeAttribute c' = p' at hfound htaken
  obtain ⟨r, d⟩ := p
  obtain ⟨r', d'⟩ := p'
  obtain rfl : r = r' := hfound
  cases r with
  | error e => exact ⟨rfl, htaken⟩
  | ok found =>
    have hconfigured : (v.onto n' k).configured found = v.configured found := rfl
    have hsensitive : (v.onto n' k).need "sensitive" (v.onto n' k).marker.sensitive? =
        v.need "sensitive" v.marker.sensitive? := rfl
    dsimp only
    rw [hconfigured, hsensitive]
    cases v.configured found with
    | error e => exact ⟨rfl, htaken⟩
    | ok x =>
      cases v.need "sensitive" v.marker.sensitive? with
      | error e => exact ⟨rfl, htaken⟩
      | ok sensitive =>
        have hdemand : wordless (v.demand x (.missingAttribute v.node.name v.marker.shownName)) =
            wordless (v.demand x (.missingAttribute n'.name v.marker.shownName)) :=
          v.wordless_demand x rfl
        have hdemand' : (v.onto n' k).demand x (.missingAttribute (v.onto n' k).node.name
            (v.onto n' k).marker.shownName) =
          v.demand x (.missingAttribute n'.name v.marker.shownName) := rfl
        dsimp only
        rw [hdemand']
        generalize v.demand x (.missingAttribute v.node.name v.marker.shownName) = d,
          v.demand x (.missingAttribute n'.name v.marker.shownName) = d' at hdemand
        cases d <;> cases d' <;>
          first | exact ⟨rfl, htaken⟩ | exact ⟨wordless_error hdemand, htaken⟩ | cases hdemand

/-- The visitor of elements does not care about spelling. -/
theorem caseBlind_ofElement : ofElement.CaseBlind := by
  intro v n' k c c' hn hc
  obtain ⟨hfound, htaken⟩ := Visit.takeChildren_onto hn hc k (!takesAll v.type)
  unfold ofElement
  dsimp only
  have htype : (v.onto n' k).type = v.type := rfl
  have hneed : (v.onto n' k).need "required" (v.onto n' k).marker.required? =
    v.need "required" v.marker.required? := rfl
  rw [htype, hneed]
  generalize v.takeChildren c (!takesAll v.type) = p,
    (v.onto n' k).takeChildren c' (!takesAll v.type) = p' at hfound htaken
  obtain ⟨r, d⟩ := p
  obtain ⟨r', d'⟩ := p'
  cases r with
  | error e =>
    cases r' with
    | error e' =>
      obtain rfl : e = e' := Except.error.inj hfound
      exact ⟨rfl, htaken⟩
    | ok found' => cases hfound
  | ok found =>
    cases r' with
    | error e' => cases hfound
    | ok found' =>
      have hbuilt : found.map Node.built = found'.map Node.built := Except.ok.inj hfound
      have hempty : found.isEmpty = found'.isEmpty := by
        rw [← List.isEmpty_map, hbuilt, List.isEmpty_map]
      dsimp only
      rw [hempty, hbuilt]
      split
      · exact ⟨rfl, htaken⟩
      · exact ⟨rfl, htaken⟩
      · exact ⟨rfl, htaken⟩

/-- A text is delivered alike. -/
theorem corresponds_deliverText {v : Visit} {n' : Node} {c c' : Taken}
    (hc : Taken.Corresponds v.node n' c c') (k : Value)
    (found : Except InputError (Option Value)) :
    (deliverText v found c).Corresponds v.node n' (deliverText (v.onto n' k) found c') := by
  have hconfigured : found.bind (v.onto n' k).configured = found.bind v.configured := rfl
  unfold deliverText
  rw [hconfigured]
  cases found.bind v.configured with
  | error e => exact ⟨rfl, hc⟩
  | ok x =>
    have hdemand : wordless (v.demand x (.missingText v.node.name)) =
        wordless (v.demand x (.missingText n'.name)) := v.wordless_demand x rfl
    have hdemand' : (v.onto n' k).demand x (.missingText (v.onto n' k).node.name) =
      v.demand x (.missingText n'.name) := rfl
    dsimp only
    rw [hdemand']
    generalize v.demand x (.missingText v.node.name) = a,
      v.demand x (.missingText n'.name) = a' at hdemand
    cases a <;> cases a' <;>
      first | exact ⟨rfl, hc⟩ | exact ⟨wordless_error hdemand, hc⟩ | cases hdemand

/-- The visitor of texts does not care about spelling. -/
theorem caseBlind_ofText : ofText.CaseBlind := by
  intro v n' k c c' hn hc
  have htext : (v.onto n' k).node.text = v.node.text := hn.text.symm
  cases h : v.node.text with
  | some s =>
    rw [visit_ofText_of_some h, visit_ofText_of_some (htext.trans h)]
    exact corresponds_deliverText hc k _
  | none =>
    obtain ⟨hfound, htaken⟩ := Visit.takeAttribute_onto hn hc k
    rw [visit_ofText_of_none h, visit_ofText_of_none (htext.trans h), ← hfound]
    exact corresponds_deliverText htaken k _

/-- The built-in visitors do not care about spelling, except for those that deliver the element or
the configuration. -/
theorem caseBlind_of_find?_standard {kind : String} {d : Visitor}
    (h : VisitorRegistry.standard.find? kind = some d) (hnode : kind ≠ Origin.node.kind)
    (hconfiguration : kind ≠ Origin.configuration.kind) : d.CaseBlind := by
  obtain ⟨hkind, hmem⟩ := VisitorRegistry.eq_of_find?_standard h
  simp only [List.mem_cons, List.not_mem_nil, or_false] at hmem
  rcases hmem with rfl | rfl | rfl | rfl | rfl
  · exact caseBlind_ofAttribute
  · exact caseBlind_ofElement
  · exact caseBlind_ofText
  · exact absurd hkind hnode
  · exact absurd hkind hconfiguration

end Visitor

/-! ### Bindings -/

namespace Binder

/-- The binder for another element, in a configuration of another name. -/
def onto (b : Binder) (n : Node) (configuration : Value) : Binder :=
  { b with node := n, configuration := configuration }

variable {b : Binder} {n' : Node}

/-- Markers are visited alike. -/
theorem corresponds_resolveFrom (hn : Respelt b.node n') {i : Input} {ms : List Marker}
    (h : ∀ m ∈ ms, ∀ d, b.visitors.find? m.kind = some d → d.CaseBlind) (k : Value)
    (last : Option Value) {c c' : Taken} (hc : Taken.Corresponds b.node n' c c') :
    (b.resolveFrom i ms last c).Corresponds b.node n'
      ((b.onto n' k).resolveFrom i ms last c') := by
  induction ms generalizing last c c' with
  | nil => exact ⟨rfl, hc⟩
  | cons m ms ih =>
    have hms : ∀ m ∈ ms, ∀ d, b.visitors.find? m.kind = some d → d.CaseBlind := fun m' hm' =>
      h m' (List.mem_cons_of_mem m hm')
    cases hd : b.visitors.find? m.kind with
    | none =>
      rw [resolveFrom_cons_of_none hd,
        resolveFrom_cons_of_none (show (b.onto n' k).visitors.find? m.kind = none from hd)]
      exact ih hms last hc
    | some d =>
      rw [resolveFrom_cons_of_some hd,
        resolveFrom_cons_of_some (show (b.onto n' k).visitors.find? m.kind = some d from hd)]
      have hvisit := h m List.mem_cons_self d hd (b.occasion i m) n' k c c' hn hc
      exact hvisit.bind fun x c c' hc => ih hms (some x) hc

/-- Inputs are found to have the same values. -/
theorem corresponds_resolveAll (hn : Respelt b.node n') {is : List Input}
    (h : ∀ i ∈ is, i.BoundBy Visitor.CaseBlind b.visitors) (k : Value) {c c' : Taken}
    (hc : Taken.Corresponds b.node n' c c') :
    (b.resolveAll is c).Corresponds b.node n' ((b.onto n' k).resolveAll is c') := by
  induction is generalizing c c' with
  | nil => exact ⟨rfl, hc⟩
  | cons i is ih =>
    have his : ∀ i ∈ is, i.BoundBy Visitor.CaseBlind b.visitors := fun j hj =>
      h j (List.mem_cons_of_mem i hj)
    have hi := corresponds_resolveFrom (i := i) hn (h i List.mem_cons_self) k none hc
    exact hi.bind fun x c c' hc => (ih his hc).map _

/-- The fields of a builder are set to the same values. -/
theorem corresponds_inject (hn : Respelt b.node n') {is : List Input}
    (h : ∀ i ∈ is, i.BoundBy Visitor.CaseBlind b.visitors) (k : Value) (fields : Fields)
    {c c' : Taken} (hc : Taken.Corresponds b.node n' c c') :
    (b.inject is fields c).Corresponds b.node n' ((b.onto n' k).inject is fields c') := by
  rw [inject_eq, inject_eq]
  exact (corresponds_resolveAll hn h k hc).map _

/-- A factory gets the same arguments. -/
theorem corresponds_arguments (hn : Respelt b.node n') {is : List Input}
    (h : ∀ i ∈ is, i.BoundBy Visitor.CaseBlind b.visitors) (k : Value) {c c' : Taken}
    (hc : Taken.Corresponds b.node n' c c') :
    (b.arguments is c).Corresponds b.node n' ((b.onto n' k).arguments is c') := by
  rw [arguments_eq, arguments_eq, values_eq, values_eq]
  have hvalues := (corresponds_resolveAll hn h k hc).map (List.map (·.getD Value.null))
  exact hvalues.bind fun x c c' hc => ⟨rfl, hc⟩

end Binder

/-! ### Jobs -/

/-- The kinds of the diagnostics of an attempt. -/
def Attempt.kinds : Attempt → List DiagnosticKind
  | .absent => [.resolutionMiss]
  | .declined | .failed (.error _) _ => []
  | .failed (.ok _) _ => [.invocationFailure]
  | .done _ leftovers _ => leftovers.map (·.kind)

/-- What an attempt comes to, but for words. -/
structure Attempt.Outline where
  raised : Option Fault
  delivered : Option Value
  kinds : List DiagnosticKind

/-- What an attempt comes to, but for words. -/
def Attempt.outline (a : Attempt) : Attempt.Outline := ⟨Job.raised? a, Job.delivered? a, a.kinds⟩

/-- Of a failed attempt only the words are left out. -/
theorem Attempt.outline_failed {e e' : InputError} (h : e.mute? = e'.mute?) (log log' : Log) :
    (failed e.message log).outline = (failed e'.message log').outline := by
  unfold InputError.mute? at h
  cases hm : e.message with
  | ok m =>
    cases hm' : e'.message with
    | ok m' => rfl
    | error f' => rw [hm, hm'] at h; cases h
  | error f =>
    cases hm' : e'.message with
    | ok m' => rw [hm, hm'] at h; cases h
    | error f' =>
      rw [hm, hm'] at h
      rw [Option.some.inj h]
      rfl

/-- What a build comes to, but for words. -/
structure Outline where
  built : Value
  ok : Bool
  path : Option BuildPath
  diagnostics : List (Severity × DiagnosticKind)

/-- The level and the kind of a diagnostic. -/
def Diagnostic.outline (d : Diagnostic) : Severity × DiagnosticKind := (d.severity, d.kind)

/-- What a result comes to, but for words. -/
def BuildResult.outline (r : BuildResult) : Outline :=
  ⟨r.built, r.ok, r.path, r.diagnostics.map (·.outline)⟩

/-- Diagnostics of the same kinds have the same levels. -/
theorem map_outline_of_map_kind {ds ds' : List Diagnostic}
    (h : ds.map (·.kind) = ds'.map (·.kind)) :
    ds.map (·.outline) = ds'.map (·.outline) := by
  have hkind : ∀ ds : List Diagnostic, ds.map (·.outline) =
      (ds.map (·.kind)).map fun kind => (kind.severity, kind) := by
    intro ds
    rw [List.map_map]
    rfl
  rw [hkind, hkind, h]

/-- Ways that were gone to their ends are outlined by what they delivered and by the kinds of their
diagnostics. -/
theorem BuildResult.outline_through (x : Value) (path : BuildPath) {ds ds' : List Diagnostic}
    (h : ds.map (·.kind) = ds'.map (·.kind)) :
    (through x path ds).outline = (through x path ds').outline := by
  rw [outline, outline, through, through, map_outline_of_map_kind h]

/-- So are builds without an instance. -/
theorem BuildResult.outline_failure {ds ds' : List Diagnostic}
    (h : ds.map (·.kind) = ds'.map (·.kind)) : (failure ds).outline = (failure ds').outline := by
  rw [outline, outline, failure, failure, map_outline_of_map_kind h]

namespace Job

/-- The kinds of what is diagnosed about an attempt. -/
theorem map_kind_diagnostics (j : Job) (kind : EntryKind) (a : Attempt) :
    (j.diagnostics kind a).map (·.kind) = a.kinds := by
  rcases a with _ | _ | ⟨_ | _, _⟩ | _ <;> cases kind <;> rfl

/-- The job for another element, in a configuration of another name. -/
def onto (j : Job) (n : Node) (configuration : Value) : Job :=
  { j with node := n, configuration := configuration }

variable {j : Job} {n' : Node}

/-- An attempt begins with the corresponding children taken. -/
theorem corresponds_taken (hn : Respelt j.node n') (k : Value) :
    Taken.Corresponds j.node n' j.taken (j.onto n' k).taken := .reserving hn _

/-- Attempts with corresponding values come to the same. -/
theorem outline_ofOutcome_onto {α : Type} {o o' : Outcome α} (hn : Respelt j.node n')
    (h : o.Corresponds j.node n' o') (k : Value) (make : α → Except Fault Value) :
    (Attempt.ofOutcome o make j.leftovers).outline =
      (Attempt.ofOutcome o' make (j.onto n' k).leftovers).outline := by
  obtain ⟨r, c, log⟩ := o
  obtain ⟨r', c', log'⟩ := o'
  cases r with
  | error e =>
    cases r' with
    | error e' => exact Attempt.outline_failed (Except.error.inj h.result) log log'
    | ok x' => cases h.result
  | ok x =>
    cases r' with
    | error e' => cases h.result
    | ok x' =>
      obtain rfl : x = x' := Except.ok.inj h.result
      unfold Attempt.ofOutcome
      dsimp only
      cases make x with
      | error f =>
        change (Attempt.failed (InputError.message (.fault f)) log).outline =
          (Attempt.failed (InputError.message (.fault f)) log').outline
        exact Attempt.outline_failed rfl log log'
      | ok y =>
        exact congrArg (Attempt.Outline.mk none (some y))
          (h.taken.kinds_leftovers hn j.type.deferChildren)

/-- The attempts by a builder come to the same. -/
theorem outline_attemptBuilder_onto (hn : Respelt j.node n')
    (h : j.type.BoundBy Visitor.CaseBlind j.visitors) (k : Value) :
    j.attemptBuilder.outline = (j.onto n' k).attemptBuilder.outline := by
  refine rel_attemptBuilder (R := fun a a' => a.outline = a'.outline) (fun _ => rfl) rfl
    fun f b hf hs => ?_
  have hinject := Binder.corresponds_inject (b := j.binder) hn (h.builder f b hf hs) k b.initial
    (corresponds_taken hn k)
  exact outline_ofOutcome_onto hn hinject k b.finish

/-- The attempts by a factory come to the same. -/
theorem outline_attemptFactory_onto (hn : Respelt j.node n')
    (h : j.type.BoundBy Visitor.CaseBlind j.visitors) (k : Value) :
    j.attemptFactory.outline = (j.onto n' k).attemptFactory.outline := by
  refine rel_attemptFactory (R := fun a a' => a.outline = a'.outline) (fun _ => rfl) rfl
    fun f hf => ?_
  have harguments := Binder.corresponds_arguments (b := j.binder) hn (h.factory f hf) k
    (corresponds_taken hn k)
  exact outline_ofOutcome_onto hn harguments k f.create

/-- A build is outlined by its attempts. -/
theorem outline_run_eq {j' : Job} (hbuilder : j.attemptBuilder.outline = j'.attemptBuilder.outline)
    (hfactory : j.attemptFactory.outline = j'.attemptFactory.outline) :
    j.run.1.map (·.outline) = j'.run.1.map (·.outline) := by
  obtain ⟨hraised, hdelivered, hkinds⟩ := Attempt.Outline.mk.inj hbuilder
  obtain ⟨hraised', hdelivered', hkinds'⟩ := Attempt.Outline.mk.inj hfactory
  have hfirst : (j.diagnostics .builderFactory j.attemptBuilder).map (·.kind) =
      (j'.diagnostics .builderFactory j'.attemptBuilder).map (·.kind) := by
    rw [map_kind_diagnostics, map_kind_diagnostics, hkinds]
  have hboth : (j.diagnostics .builderFactory j.attemptBuilder ++
        j.diagnostics .factory j.attemptFactory).map (·.kind) =
      (j'.diagnostics .builderFactory j'.attemptBuilder ++
        j'.diagnostics .factory j'.attemptFactory).map (·.kind) := by
    simp only [List.map_append, map_kind_diagnostics, hkinds, hkinds']
  unfold run
  dsimp only
  rw [← hraised, ← hdelivered, ← hraised', ← hdelivered']
  cases raised? j.attemptBuilder with
  | some f => rfl
  | none =>
    cases delivered? j.attemptBuilder with
    | some x => exact congrArg Except.ok (BuildResult.outline_through x .builder hfirst)
    | none =>
      cases raised? j.attemptFactory with
      | some f => rfl
      | none =>
        cases delivered? j.attemptFactory with
        | some x => exact congrArg Except.ok (BuildResult.outline_through x .factory hboth)
        | none => exact congrArg Except.ok (BuildResult.outline_failure hboth)

/-- A build of a respelt element comes to the same but for words. -/
theorem outline_run_onto (hn : Respelt j.node n')
    (h : j.type.BoundBy Visitor.CaseBlind j.visitors) (k : Value) :
    j.run.1.map (·.outline) = (j.onto n' k).run.1.map (·.outline) :=
  outline_run_eq (outline_attemptBuilder_onto hn h k) (outline_attemptFactory_onto hn h k)

end Job
end ConfigAssembly
