import Mathlib.Data.List.Induction
import Mathlib.Data.List.Nodup
import ConfigAssembly.Proofs.Plugin.Registration

/-!
# What an alias leads to

Different classes are registered one after the other just if their plugins have different names;
then each registration writes its type and its aliases (`registerAll_eq_ok_iff`). So a name finds
the type of that name, and otherwise the type that declared it last as an alias. Aliases are not
checked against anything: a plugin is found under its own alias if and only if no other plugin has
it as its name, nor a later one as an alias (`get?_alias_of_registerAll`).
-/

namespace ConfigAssembly.Registry

open ConfigAssembly.Text

/-- Registers plugin types on a new registry one after the other, each for its class. -/
def registerAll (ts : List PluginType) : Except RegistrationError Registry :=
  ts.foldlM (fun r t => r.register t.pluginClass t) empty

/-- A new registry with plugin types written to it. -/
def writeAll (ts : List PluginType) : Registry := ts.foldl write empty

section

variable {ts : List PluginType} {t : PluginType}

/-- The last type is written last. -/
theorem writeAll_concat (ts : List PluginType) (t : PluginType) :
    writeAll (ts ++ [t]) = (writeAll ts).write t := by
  simp [writeAll]

/-- Writing does not freeze the registry. -/
theorem frozen_writeAll (ts : List PluginType) : (writeAll ts).frozen = false := by
  induction ts using List.reverseRecOn with
  | nil => rfl
  | append_singleton ts t ih =>
    rw [writeAll_concat]
    exact ih

/-- If the names differ, the type of a name stands under it. -/
theorem types_get?_writeAll (hnames : (ts.map fun t => lower t.name).Nodup) (key : String) :
    (writeAll ts).types.get? key = ts.find? fun t => lower t.name == key := by
  induction ts using List.reverseRecOn with
  | nil => rfl
  | append_singleton ts t ih =>
    rw [List.map_append, List.nodup_append] at hnames
    obtain ⟨hts, _, hnew⟩ := hnames
    have hget : (writeAll (ts ++ [t])).types.get? key =
        if lower t.name == key then some t else (writeAll ts).types.get? key := by
      rw [writeAll_concat]
      exact Assoc.get?_insert _ _ _ _
    rw [hget, ih hts, List.find?_append]
    by_cases hkey : lower t.name = key
    · have hnone : ts.find? (fun t => lower t.name == key) = none := by
        rw [List.find?_eq_none]
        intro u hu hname
        have hsame : lower u.name = lower t.name := (beq_iff_eq.1 hname).trans hkey.symm
        exact hnew _ (List.mem_map_of_mem hu) _ List.mem_cons_self hsame
      simp [hkey, hnone]
    · simp [hkey]

/-- An alias leads to the name of the last type that declares it. -/
theorem aliases_get?_writeAll (ts : List PluginType) (key : String) :
    (writeAll ts).aliases.get? key =
      (ts.reverse.find? fun t => t.aliases.any fun a => lower a == key).map fun t =>
        lower t.name := by
  induction ts using List.reverseRecOn with
  | nil => rfl
  | append_singleton ts t ih =>
    have hown : Assoc.get? (t.aliases.map fun a => (lower a, lower t.name)).reverse key =
        if t.aliases.any fun a => lower a == key then some (lower t.name) else none := by
      rw [← List.map_reverse, ← List.any_reverse]
      induction t.aliases.reverse with
      | nil => rfl
      | cons a as ih => cases ha : lower a == key <;> simp_all [Assoc.get?]
    have hget : (writeAll (ts ++ [t])).aliases.get? key =
        (Assoc.get? (t.aliases.map fun a => (lower a, lower t.name)).reverse key).or
          ((writeAll ts).aliases.get? key) := by
      rw [writeAll_concat]
      exact Assoc.get?_insertAll _ _ _
    rw [hget, hown, ih, List.reverse_append]
    cases h : t.aliases.any fun a => lower a == key <;> simp [h]

/-- If the names differ, each type is found by its name. -/
theorem find?_name_of_mem (hnames : (ts.map fun t => lower t.name).Nodup) (ht : t ∈ ts) :
    (ts.find? fun u => lower u.name == lower t.name) = some t := by
  obtain ⟨u, hu⟩ : ∃ u, (ts.find? fun u => lower u.name == lower t.name) = some u :=
    Option.isSome_iff_exists.1 (List.find?_isSome.2 ⟨t, ht, by simp⟩)
  have hsame : lower u.name = lower t.name := by simpa using List.find?_some hu
  rw [hu, List.inj_on_of_nodup_map hnames (List.mem_of_find?_eq_some hu) ht hsame]

/-- After types of other classes a type can be registered just if none of them has its name. -/
theorem register_writeAll (hnames : (ts.map fun t => lower t.name).Nodup)
    (hclass : ∀ u ∈ ts, u.pluginClass.key ≠ t.pluginClass.key) {r : Registry} :
    (writeAll ts).register t.pluginClass t = .ok r ↔
      (∀ u ∈ ts, lower u.name ≠ lower t.name) ∧ r = writeAll (ts ++ [t]) := by
  rw [register_eq_ok_iff, types_get?_writeAll hnames, writeAll_concat]
  constructor
  · rintro ⟨_, hfree, hr⟩
    refine ⟨fun u hu hsame => ?_, hr⟩
    exact hclass u hu (hfree u (hsame ▸ find?_name_of_mem hnames hu))
  · rintro ⟨hfree, hr⟩
    refine ⟨frozen_writeAll ts, fun u hu => ?_, hr⟩
    exact absurd (by simpa using List.find?_some hu) (hfree u (List.mem_of_find?_eq_some hu))

/-- The last type is registered last. -/
theorem registerAll_concat {r : Registry} :
    registerAll (ts ++ [t]) = .ok r ↔
      ∃ r', registerAll ts = .ok r' ∧ r'.register t.pluginClass t = .ok r := by
  rw [registerAll, List.foldlM_append]
  change (registerAll ts >>= fun r' => r'.register t.pluginClass t >>= pure) = _ ↔ _
  simp only [bind_pure]
  cases registerAll ts <;> simp [bind, Except.bind]

/-- Different classes can be registered just if their names differ, and then they are written. -/
theorem registerAll_eq_ok_iff (hclasses : (ts.map (·.pluginClass.key)).Nodup) {r : Registry} :
    registerAll ts = .ok r ↔ (ts.map fun t => lower t.name).Nodup ∧ r = writeAll ts := by
  induction ts using List.reverseRecOn generalizing r with
  | nil => simp [registerAll, writeAll, pure, Except.pure, eq_comm]
  | append_singleton ts t ih =>
    rw [List.map_append, List.nodup_append] at hclasses
    obtain ⟨hts, _, hnew⟩ := hclasses
    have hclass : ∀ u ∈ ts, u.pluginClass.key ≠ t.pluginClass.key := fun u hu =>
      hnew _ (List.mem_map_of_mem hu) _ List.mem_cons_self
    rw [registerAll_concat, List.map_append, List.nodup_append]
    constructor
    · rintro ⟨r', hr', hregister⟩
      obtain ⟨hnames, rfl⟩ := (ih hts).1 hr'
      obtain ⟨hfree, rfl⟩ := (register_writeAll hnames hclass).1 hregister
      exact ⟨⟨hnames, by simp, by simpa using hfree⟩, rfl⟩
    · rintro ⟨⟨hnames, _, hfree⟩, rfl⟩
      exact ⟨writeAll ts, (ih hts).2 ⟨hnames, rfl⟩,
        (register_writeAll hnames hclass).2 ⟨by simpa using hfree, rfl⟩⟩

/-! ### Looking names up -/

/-- A name finds the type of that name, or else the last type with such an alias. -/
theorem get?_writeAll (hnames : (ts.map fun t => lower t.name).Nodup) (name : String) :
    (writeAll ts).get? name = (ts.find? fun t => sameName t.name name).or
      (ts.reverse.find? fun t => t.aliases.any (sameName · name)) := by
  cases htype : ts.find? fun t => sameName t.name name with
  | some t => exact get?_of_type ((types_get?_writeAll hnames _).trans htype)
  | none =>
    rw [get?_of_no_type ((types_get?_writeAll hnames _).trans htype), aliases_get?_writeAll]
    change ((ts.reverse.find? fun t => t.aliases.any (sameName · name)).map _).bind _ = _
    cases hlast : ts.reverse.find? fun t => t.aliases.any (sameName · name) with
    | none => rfl
    | some t =>
      have ht : t ∈ ts := List.mem_reverse.1 (List.mem_of_find?_eq_some hlast)
      exact (types_get?_writeAll hnames _).trans (find?_name_of_mem hnames ht)

/-- A type is found under its alias just if no other type has it as its name and, unless the type
itself has it as its name, no later type has it as an alias. -/
theorem get?_writeAll_alias {before after : List PluginType} (hts : ts = before ++ t :: after)
    (hdistinct : ts.Nodup) (hnames : (ts.map fun t => lower t.name).Nodup) {a name : String}
    (ha : a ∈ t.aliases) (hname : lower name = lower a) :
    (writeAll ts).get? name = some t ↔ (∀ u ∈ ts, lower u.name = lower a → u = t) ∧
      (lower t.name = lower a ∨ ∀ u ∈ after, ∀ b ∈ u.aliases, lower b ≠ lower a) := by
  have ht : t ∈ ts := by simp [hts]
  have hown : t.aliases.any (sameName · name) = true :=
    List.any_eq_true.2 ⟨a, ha, sameName_iff.2 hname.symm⟩
  rw [get?_writeAll hnames]
  cases htype : ts.find? fun u => sameName u.name name with
  | some u =>
    have hu : u ∈ ts := List.mem_of_find?_eq_some htype
    have husame : lower u.name = lower a := by
      have hsame := List.find?_some htype
      exact (sameName_iff.1 hsame).trans hname
    simp only [Option.some_or, Option.some.injEq]
    constructor
    · rintro rfl
      refine ⟨fun v hv hvsame => ?_, .inl husame⟩
      exact List.inj_on_of_nodup_map hnames hv hu (hvsame.trans husame.symm)
    · rintro ⟨honly, _⟩
      exact honly u hu husame
  | none =>
    have hfree : ∀ u ∈ ts, lower u.name ≠ lower a := by
      intro u hu hsame
      exact List.find?_eq_none.1 htype u hu (sameName_iff.2 (hsame.trans hname.symm))
    have hrest : (ts.reverse.find? fun u => u.aliases.any (sameName · name)) =
        (after.reverse.find? fun u => u.aliases.any (sameName · name)).or (some t) := by
      simp [hts, List.find?_append, hown]
    rw [Option.none_or, hrest]
    cases hlater : after.reverse.find? fun u => u.aliases.any (sameName · name) with
    | none =>
      simp only [Option.none_or, true_iff]
      refine ⟨fun u hu hsame => absurd hsame (hfree u hu), .inr fun u hu b hb hsame => ?_⟩
      have hnone := List.find?_eq_none.1 hlater u (List.mem_reverse.2 hu)
      exact hnone (List.any_eq_true.2 ⟨b, hb, sameName_iff.2 (hsame.trans hname.symm)⟩)
    | some u =>
      have hu : u ∈ after := List.mem_reverse.1 (List.mem_of_find?_eq_some hlater)
      have hne : u ≠ t := by
        rintro rfl
        have hcons := (List.nodup_append.1 (hts ▸ hdistinct)).2.1
        exact (List.nodup_cons.1 hcons).1 hu
      have hhas := List.find?_some hlater
      obtain ⟨b, hb, hsame⟩ := List.any_eq_true.1 hhas
      simp only [Option.some_or, Option.some.injEq]
      constructor
      · intro heq
        exact absurd heq hne
      · rintro ⟨_, hname' | hnone⟩
        · exact absurd hname' (hfree t ht)
        · exact absurd ((sameName_iff.1 hsame).trans hname) (hnone u hu b hb)

/-- Registering plugin types of different classes succeeds if and only if their names differ; their
aliases do not matter. Then a name finds the type of that name, or else the last type with such an
alias. So a type is found under its alias just if no other type has it as its name and, unless the
type itself has it as its name, no later type has it as an alias. -/
theorem get?_alias_of_registerAll {ts : List PluginType}
    (hclasses : (ts.map (·.pluginClass.key)).Nodup) :
    ((∃ r, registerAll ts = .ok r) ↔ (ts.map fun t => lower t.name).Nodup) ∧
      ∀ r, registerAll ts = .ok r →
        (∀ name, r.get? name = (ts.find? fun t => sameName t.name name).or
          (ts.reverse.find? fun t => t.aliases.any (sameName · name))) ∧
        ∀ before t after, ts = before ++ t :: after → ∀ a ∈ t.aliases, ∀ name,
          lower name = lower a →
            (r.get? name = some t ↔ (∀ u ∈ ts, lower u.name = lower a → u = t) ∧
              (lower t.name = lower a ∨ ∀ u ∈ after, ∀ b ∈ u.aliases, lower b ≠ lower a)) := by
  refine ⟨?_, ?_⟩
  · constructor
    · rintro ⟨r, hr⟩
      exact ((registerAll_eq_ok_iff hclasses).1 hr).1
    · intro hnames
      exact ⟨writeAll ts, (registerAll_eq_ok_iff hclasses).2 ⟨hnames, rfl⟩⟩
  · intro r hr
    obtain ⟨hnames, rfl⟩ := (registerAll_eq_ok_iff hclasses).1 hr
    refine ⟨get?_writeAll hnames, ?_⟩
    intro before t after hts a ha name hname
    exact get?_writeAll_alias hts (List.Nodup.of_map _ hclasses) hnames ha hname

end

/-- A plugin that is named as the alias of an earlier one takes the alias away. -/
theorem get?_alias_of_registerAll_throttle :
    let rate := PluginType.idle 0 "Rate" ["Throttle", "Limit"]
    let throttle := PluginType.idle 1 "Throttle" []
    ∃ r, registerAll [rate, throttle] = .ok r ∧ r.get? "LIMIT" = some rate ∧
      r.get? "throttle" ≠ some rate := by
  intro rate throttle
  have hclasses : ([rate, throttle].map (·.pluginClass.key)).Nodup := by decide
  obtain ⟨hok, hget⟩ := get?_alias_of_registerAll hclasses
  obtain ⟨r, hr⟩ := hok.2 (by decide)
  have hrate := (hget r hr).2 [] rate [throttle] rfl
  refine ⟨r, hr, ?_, ?_⟩
  · refine (hrate "Limit" (by decide) "LIMIT" (by decide)).2 ⟨?_, .inr ?_⟩
    · intro u hu hname
      rcases List.mem_pair.1 hu with rfl | rfl <;> exact absurd hname (by decide)
    · simp [throttle, PluginType.idle, PluginType.aliases, PluginType.describe]
  · intro hfound
    have honly := ((hrate "Throttle" (by decide) "throttle" (by decide)).1 hfound).1
    have heq : throttle = rate := honly throttle (by simp) rfl
    have hkey : throttle.pluginClass.key = rate.pluginClass.key := congrArg (·.pluginClass.key) heq
    exact absurd hkey (by decide)

/-- Not every plugin that is registered is found under its aliases. -/
theorem not_forall_get?_alias :
    ¬ ∀ (ts : List PluginType) (r : Registry), (ts.map (·.pluginClass.key)).Nodup →
      (∀ t ∈ ts, t.IsOf t.pluginClass) → registerAll ts = .ok r →
        ∀ t ∈ ts, ∀ a ∈ t.aliases, ∀ name, lower name = lower a → r.get? name = some t := by
  intro h
  let rate := PluginType.idle 0 "Rate" ["Throttle"]
  let throttle := PluginType.idle 1 "Throttle" []
  have hnames : ([rate, throttle].map fun t => lower t.name).Nodup := by decide
  have hregister : registerAll [rate, throttle] = .ok (writeAll [rate, throttle]) :=
    (registerAll_eq_ok_iff (by decide)).2 ⟨hnames, rfl⟩
  have hof : ∀ t ∈ [rate, throttle], t.IsOf t.pluginClass := by
    intro t ht
    rcases List.mem_pair.1 ht with rfl | rfl <;> exact PluginType.isOf_idle _ _ _
  have hclaimed : (writeAll [rate, throttle]).get? "throttle" = some rate :=
    h _ _ (by decide) hof hregister rate List.mem_cons_self "Throttle" List.mem_cons_self "throttle"
      (by decide)
  have hname : lower "throttle" = lower throttle.name := by decide
  have hfound : (writeAll [rate, throttle]).get? "throttle" = some throttle := by
    apply get?_of_type
    rw [types_get?_writeAll hnames, hname]
    exact find?_name_of_mem hnames (List.mem_pair.2 (.inr rfl))
  have heq : throttle = rate := Option.some.inj (hfound.symm.trans hclaimed)
  exact absurd (congrArg (·.pluginClass.key) heq : throttle.pluginClass.key = 0) (by decide)

end ConfigAssembly.Registry
