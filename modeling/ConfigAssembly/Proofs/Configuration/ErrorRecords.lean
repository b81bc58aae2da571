import ConfigAssembly.Proofs.Build.ErrorRecords
import ConfigAssembly.Proofs.Configuration.BottomUp

/-!
# The errors that a configuration logs

While a configuration is set up and built, its log mirrors its diagnostics (`mirrors_build`): each
of the functions that build gives results whose diagnostics are mirrored by what it logs, and logs
and results are put together in the same order. Before that, reading the properties of the root logs
an error for each property without a name (`namelessRecords`), and no diagnostic records it
(`errorRecords_build`).

Where the build of an element hands on a fault there is no result of it, and the error that its
first attempt may have logged is not among the diagnostics.
-/

namespace ConfigAssembly.Configuration

/-- What builds log mirrors the diagnostics of their results, but for one error at most, where a
fault was handed on. -/
def Built.Mirrored (b : Built) : Prop :=
  ∃ lost : Log, b.log.atLeast .error =
      ((b.results.flatMap (·.diagnostics)).filter (·.isError)).map (·.record) ++ lost ∧
    lost.length ≤ 1 ∧ (b.raised = .none → lost = [])

namespace Built.Mirrored

/-- Where nothing is built nothing is logged. -/
theorem none : Built.none.Mirrored := ⟨[], rfl, Nat.zero_le 1, fun _ => rfl⟩

/-- Without a fault nothing is lost. -/
theorem mirrors {b : Built} (h : b.Mirrored) (hb : b.raised = .none) :
    b.log.Mirrors (b.results.flatMap (·.diagnostics)) := by
  obtain ⟨lost, hlog, _, hnone⟩ := h
  rwa [hnone hb, List.append_nil] at hlog

/-- Builds that follow one another are mirrored together. -/
theorem goOn {α : Type} {b : Built} {left : α} {others : Unit → α × Built} (h : b.Mirrored)
    (hothers : (others ()).2.Mirrored) : (b.goOn left others).2.Mirrored := by
  cases hb : b.raised with
  | some f =>
    rw [goOn_of_raised hb]
    exact h
  | none =>
    rw [goOn_of_none hb]
    have hfirst := h.mirrors hb
    obtain ⟨lost, hlog, hlength, hnone⟩ := hothers
    refine ⟨lost, ?_, hlength, fun hr => hnone ?_⟩
    · unfold Log.Mirrors at hfirst
      simp only [append, Log.atLeast_append, hfirst, hlog, List.flatMap_append, List.filter_append,
        List.map_append, List.append_assoc]
    · simpa [append, hb] using hr

end Built.Mirrored

section Build

variable {s : Services} (event : Option Event)

/-- What a build of one node logs mirrors the diagnostics of its result. -/
theorem mirrored_buildOne (h : s.visitors.Quiet) (reserved : List String) (n : Node) :
    (buildOne s event reserved n).2.Mirrored := by
  cases ht : n.type with
  | none =>
    rw [buildOne_of_none ht]
    exact .none
  | some t =>
    cases hr : (job s event reserved t n).run.1 with
    | ok result =>
      rw [buildOne_of_ok ht hr]
      have hrun : (job s event reserved t n).run.2.Mirrors result.diagnostics :=
        Job.mirrors_run h hr
      refine ⟨[], ?_, Nat.zero_le 1, fun _ => rfl⟩
      rw [List.flatMap_cons, List.flatMap_nil, List.append_nil, List.append_nil]
      exact hrun
    | error f =>
      rw [buildOne_of_error ht hr]
      exact ⟨_, rfl, Job.length_errors_of_run_error h hr, fun hnone => (by cases hnone)⟩

mutual

/-- So does what a build of a tree logs. -/
theorem mirrored_buildNode (h : s.visitors.Quiet) : (n : Node) → (buildNode s event n).2.Mirrored
  | ⟨name, attributes, text, slot, children⟩ => by
    rw [buildNode]
    -- A plugin that defers has only its own element built.
    split
    · exact mirrored_buildOne event h [] _
    · have hbelow := mirrored_buildNodes h children
      exact hbelow.goOn (mirrored_buildOne event h [] _)

/-- So does what builds of several trees log. -/
theorem mirrored_buildNodes (h : s.visitors.Quiet) :
    (ns : List Node) → (buildNodes s event ns).2.Mirrored
  | [] => .none
  | n :: ns => by
    have hfirst := mirrored_buildNode h n
    have hrest := mirrored_buildNodes h ns
    rw [buildNodes_cons]
    exact hfirst.goOn hrest

end

/-- So does what the builds of the children of a root log. -/
theorem mirrored_buildElements (h : s.visitors.Quiet) (ns : List Node) :
    (buildElements s event ns).2.Mirrored := by
  induction ns with
  | nil => exact .none
  | cons n ns ih =>
    cases hp : isPropertiesBlock n with
    | true =>
      rw [buildElements_cons_of_block hp]
      exact ih
    | false =>
      rw [buildElements_cons hp]
      exact (mirrored_buildNode event h n).goOn ih

/-- So does what the build of a root logs. -/
theorem mirrored_buildRoot (h : s.visitors.Quiet) (root : Node) :
    (buildRoot s event root).2.Mirrored := by
  rw [buildRoot_eq]
  exact (mirrored_buildElements event h root.children).goOn
    (mirrored_buildOne event h [propertiesName] _)

end Build

/-- What setting up and building log mirrors the diagnostics, but for one error at most. -/
theorem mirrors_build {c : Configuration} (hv : c.visitors.Quiet) (hresolved : c.resolved = false)
    (hresults : c.results = []) (hdiagnostics : c.diagnostics = []) (event : Option Event) :
    ∃ lost : Log, (c.build event).report.log.atLeast .error =
        ((c.build event).configuration.diagnostics.filter (·.isError)).map (·.record) ++ lost ∧
      lost.length ≤ 1 ∧ ((c.build event).raised = none → lost = []) := by
  have hlog : ∃ summary : Log, summary.Quiet ∧ (c.build event).report.log = c.setup.2.log ++
      ((buildRoot c.setup.1.services event c.setup.1.root).2.log ++ summary) := by
    refine ⟨_, ?_, log_build hresolved event⟩
    split
    · exact Log.quiet_nil
    · rfl
  obtain ⟨summary, hsummary, hlog⟩ := hlog
  have hsetup : c.setup.2.log.Mirrors c.setup.1.diagnostics := by
    change Log.Mirrors _ (c.diagnostics ++ _)
    rw [hdiagnostics, List.nil_append]
    exact Log.mirrors_records _
  have hroot : (buildRoot c.setup.1.services event c.setup.1.root).2.Mirrored :=
    mirrored_buildRoot event hv c.setup.1.root
  obtain ⟨_, hresult, hraised⟩ := built_build hresolved hresults event
  obtain ⟨lost, hlost, hlength, hnone⟩ := hroot
  refine ⟨lost, ?_, hlength, fun h => hnone (hraised ▸ h)⟩
  unfold Log.Mirrors at hsetup
  unfold Log.Quiet at hsummary
  rw [diagnostics_build hresolved hresults, hresult, hlog, Log.atLeast_append, Log.atLeast_append,
    hsetup, hlost, hsummary, List.filter_append, List.map_append, List.append_nil,
    List.append_assoc]

/-- The errors that are logged while a configuration is made and built are the properties without a
name and then the diagnostics that report errors, in their order. Where the build hands on a fault,
one more error may be logged. -/
theorem errorRecords_build {root : Node} {registry : Registry} {visitors : VisitorRegistry}
    {environment : Assoc String String} {overrides : Assoc String Value} {c : Configuration}
    {log : Log} (h : make root registry visitors environment overrides = (.ok c, log))
    (hv : visitors.Quiet) (event : Option Event) :
    ∃ lost, Log.atLeast (log ++ (c.build event).report.log) .error =
        namelessRecords root ++
          ((c.build event).configuration.diagnostics.filter (·.isError)).map (·.record) ++ lost ∧
      lost.length ≤ 1 ∧ ((c.build event).raised = none → lost = []) := by
  obtain ⟨hc, hread⟩ := eq_of_make h
  have hlog : log = namelessRecords root := by
    unfold readProperties at hread
    obtain ⟨hs, hlog⟩ := Prod.mk.inj hread
    obtain ⟨s, hs, _⟩ := exists_of_map_eq_ok hs
    rw [← hlog]
    exact log_declareProperties (Prod.ext hs rfl)
  have herrors : log.atLeast .error = namelessRecords root := by
    rw [hlog]
    refine List.filter_eq_self.2 fun r hr => ?_
    rw [List.eq_of_mem_replicate hr]
    rfl
  obtain ⟨lost, hlost, hlength, hnone⟩ :=
    mirrors_build (c := c) (by rwa [hc]) (by rw [hc]) (by rw [hc]) (by rw [hc]) event
  refine ⟨lost, ?_, hlength, hnone⟩
  rw [Log.atLeast_append, herrors, hlost, List.append_assoc]

end ConfigAssembly.Configuration
