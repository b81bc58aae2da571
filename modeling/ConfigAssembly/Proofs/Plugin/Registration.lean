import Mathlib.Logic.Relation
import ConfigAssembly.Plugin.Registry

/-!
# What registering leaves of a registry

Every call that may change a registry comes to a sequence of changes of two kinds: a plugin type is
registered for the class that it was made of, or the registry is closed (`Change`,
`changes_run`). So what a change keeps, every sequence of calls keeps:

* types stand under their names in lower case, and aliases lead to types (`Sound.change`), which is
  why looking a name up cannot fail (`Sound.find_eq`);
* a name stays with its class (`Change.exists_type`);
* a closed registry stays as it is (`Change.eq_of_frozen`).

`invariant_of_reachable` says it of all registries that calls on a new one lead to. A module is
registered up to the first name that makes an error (`registerNames_eq_error`).
-/

namespace ConfigAssembly

open ConfigAssembly.Text

/-- A plugin type is one that was made of a class. -/
def PluginType.IsOf (t : PluginType) (c : PluginClass) : Prop :=
  ∃ terms, PluginType.ofClass c terms = .ok t

/-- The class of a type of a class is that class. -/
theorem PluginType.IsOf.pluginClass_eq {t : PluginType} {c : PluginClass} (h : t.IsOf c) :
    t.pluginClass = c := by
  obtain ⟨terms, h⟩ := h
  unfold ofClass at h
  cases hs : Strategy.ofClass c with
  | error e => simp [hs, Except.map] at h
  | ok s =>
    simp only [hs, Except.map, Except.ok.injEq] at h
    rw [← h]

/-- A plugin type of a class without entry points. -/
def PluginType.idle (key : Nat) (name : String) (aliases : List String) : PluginType :=
  let c : PluginClass := ⟨key, name, "", []⟩
  ⟨c, describe c { Terms.standard with aliases := aliases }, ⟨none, none⟩⟩

/-- The types of the example are those of their classes. -/
theorem PluginType.isOf_idle (key : Nat) (name : String) (aliases : List String) :
    (idle key name aliases).IsOf (idle key name aliases).pluginClass :=
  ⟨{ Terms.standard with aliases := aliases }, rfl⟩

/-- The plugin type that is declared for a class, if one is, was made of it. -/
def PluginDeclaration.Proper (d : PluginDeclaration) : Prop :=
  ∀ t, d.declared = some t → t.IsOf d.pluginClass

/-- The type that a proper declaration makes is one of its class. -/
theorem PluginDeclaration.Proper.isOf {d : PluginDeclaration} (hd : d.Proper) {t : PluginType}
    (h : d.type = .ok t) : t.IsOf d.pluginClass := by
  unfold PluginDeclaration.type at h
  cases ht : d.declared with
  | none =>
    rw [ht] at h
    exact ⟨.standard, h⟩
  | some t' =>
    rw [ht] at h
    exact Except.ok.inj h ▸ hd t' ht

/-- The plugin types that are declared in a module were made of their classes. -/
def PluginModule.Proper (m : PluginModule) : Prop :=
  ∀ name d, m.members.get? name = some (.plugin d) → d.Proper

namespace Registry

/-! ### Changes -/

section Change

variable {r r' : Registry} {c : PluginClass} {t : PluginType}

/-- A class is registered if the registry is open and the name is free or the class's own. -/
theorem register_eq_ok_iff :
    r.register c t = .ok r' ↔
      r.frozen = false ∧ (∀ u, r.types.get? (lower t.name) = some u → u.pluginClass.key = c.key) ∧
        r' = r.write t := by
  unfold register
  cases r.frozen with
  | true => simp
  | false =>
    cases r.types.get? (lower t.name) with
    | none => simp [@eq_comm _ r']
    | some u =>
      by_cases hu : u.pluginClass.key = c.key
      · simp [hu, @eq_comm _ r']
      · simp [hu]

/-- One change of a registry. -/
inductive Change (r : Registry) : Registry → Prop
  /-- A plugin type is registered for the class that it was made of. -/
  | register {c : PluginClass} {t : PluginType} {r' : Registry} (ht : t.IsOf c)
    (h : r.register c t = .ok r') : Change r r'
  /-- The registry is closed. -/
  | freeze : Change r r.freeze

/-- A closed registry stays as it is. -/
theorem Change.eq_of_frozen (h : Change r r') (hr : r.frozen = true) : r' = r := by
  cases h with
  | register _ h =>
    rw [register_eq_ok_iff, hr] at h
    cases h.1
  | freeze => exact congrArg (Registry.mk r.types r.aliases) hr.symm

/-- A name stays with its class. -/
theorem Change.exists_type (h : Change r r') {key : String} (hkey : r.types.get? key = some t) :
    ∃ t', r'.types.get? key = some t' ∧ t'.pluginClass.key = t.pluginClass.key := by
  cases h with
  | @register c t' _ ht h =>
    obtain ⟨_, hfree, rfl⟩ := register_eq_ok_iff.1 h
    have hget : (r.write t').types.get? key =
        if lower t'.name == key then some t' else r.types.get? key := r.types.get?_insert _ _ _
    by_cases hname : lower t'.name = key
    · refine ⟨t', by simp [hget, hname], ?_⟩
      rw [ht.pluginClass_eq, hfree t (by rw [hname, hkey])]
    · exact ⟨t, by simp [hget, hname, hkey], rfl⟩
  | freeze => exact ⟨t, hkey, rfl⟩

/-- The two maps of a registry agree: types stand under their names in lower case, no name is there
twice, and aliases lead to types. -/
structure Sound (r : Registry) : Prop where
  filed : ∀ key t, (key, t) ∈ r.types → key = lower t.name
  distinct : r.types.keys.Nodup
  led : ∀ a key, (a, key) ∈ r.aliases → ∃ t, r.types.get? key = some t

/-- The empty registry is sound. -/
theorem sound_empty : Sound empty where
  filed _ _ h := by cases h
  distinct := List.nodup_nil
  led _ _ h := by cases h

/-- Every change keeps the maps of a registry in agreement. -/
theorem Sound.change (hr : r.Sound) (h : Change r r') : r'.Sound := by
  cases h with
  | @register c t _ ht hregister =>
    have hkeep : ∀ {key u}, r.types.get? key = some u → ∃ u', r'.types.get? key = some u' ∧
        u'.pluginClass.key = u.pluginClass.key := (Change.register ht hregister).exists_type
    obtain ⟨_, _, rfl⟩ := register_eq_ok_iff.1 hregister
    refine ⟨fun key u hu => ?_, Assoc.nodup_keys_insert hr.distinct _ _, fun a key ha => ?_⟩
    · rcases Assoc.eq_or_mem_of_mem_insert hu with he | hu
      · obtain ⟨rfl, rfl⟩ := Prod.mk.inj he
        rfl
      · exact hr.filed key u hu
    · rcases Assoc.mem_or_mem_of_mem_insertAll ha with ha | ha
      · obtain ⟨_, _, he⟩ := List.mem_map.1 ha
        obtain ⟨_, rfl⟩ := Prod.mk.inj he
        exact ⟨t, Assoc.get?_insert_self _ _ _⟩
      · obtain ⟨u, hu⟩ := hr.led a key ha
        obtain ⟨u', hu', _⟩ := hkeep hu
        exact ⟨u', hu'⟩
  | freeze => exact ⟨hr.filed, hr.distinct, hr.led⟩

/-! ### Sequences of changes -/

/-- Changes keep a registry sound. -/
theorem Sound.changes (hr : r.Sound) (h : Relation.ReflTransGen Change r r') : r'.Sound := by
  induction h with
  | refl => exact hr
  | tail _ hchange ih => exact ih.change hchange

/-- A closed registry stays as it is. -/
theorem eq_of_changes (h : Relation.ReflTransGen Change r r') (hr : r.frozen = true) : r' = r := by
  induction h with
  | refl => rfl
  | tail _ hchange ih => exact (hchange.eq_of_frozen (ih.symm ▸ hr)).trans ih

/-- A name stays with its class. -/
theorem exists_type_of_changes (h : Relation.ReflTransGen Change r r') {key : String}
    (hkey : r.types.get? key = some t) :
    ∃ t', r'.types.get? key = some t' ∧ t'.pluginClass.key = t.pluginClass.key := by
  induction h with
  | refl => exact ⟨t, hkey, rfl⟩
  | tail _ hchange ih =>
    obtain ⟨t₁, ht₁, hclass⟩ := ih
    obtain ⟨t₂, ht₂, hclass'⟩ := hchange.exists_type ht₁
    exact ⟨t₂, ht₂, hclass'.trans hclass⟩

end Change

/-! ### Looking names up -/

/-- Looks a name up step by step; an alias that leads to no type would be a missing key. -/
def find (r : Registry) (name : String) : Except Fault (Option PluginType) :=
  match r.types.get? (lower name) with
  | some t => .ok (some t)
  | none =>
    match r.aliases.get? (lower name) with
    | none => .ok none
    | some key =>
      match r.types.get? key with
      | some t => .ok (some t)
      | none => .error (.said .key key)

section Find

variable {r : Registry} {key : String} {t : PluginType}

/-- A type is found under its own name. -/
theorem get?_of_type {name : String} (h : r.types.get? (lower name) = some t) :
    r.get? name = some t := by
  rw [get?, resolve, h]
  rfl

/-- Another name is looked up as an alias. -/
theorem get?_of_no_type {name : String} (h : r.types.get? (lower name) = none) :
    r.get? name = (r.aliases.get? (lower name)).bind r.types.get? := by
  rw [get?, resolve, h]
  simp only [Option.map_map]
  exact congrFun Option.map_id _

/-- Nothing is missing when a name is looked up. -/
theorem Sound.find_eq (hr : r.Sound) (name : String) : r.find name = .ok (r.get? name) := by
  unfold find
  cases ht : r.types.get? (lower name) with
  | some t => rw [get?_of_type ht]
  | none =>
    rw [get?_of_no_type ht]
    cases ha : r.aliases.get? (lower name) with
    | none => rfl
    | some key =>
      obtain ⟨t, hkey⟩ := hr.led _ _ (Assoc.mem_of_get? ha)
      simp [hkey]

/-- A type is found just under the names that are known. -/
theorem Sound.isSome_get? (hr : r.Sound) (name : String) :
    (r.get? name).isSome = r.contains name := by
  rw [contains, Assoc.has_eq_isSome_get?, Assoc.has_eq_isSome_get?]
  cases ht : r.types.get? (lower name) with
  | some t => simp [get?_of_type ht]
  | none =>
    rw [get?_of_no_type ht]
    cases ha : r.aliases.get? (lower name) with
    | none => rfl
    | some key =>
      obtain ⟨t, hkey⟩ := hr.led _ _ (Assoc.mem_of_get? ha)
      simp [hkey]

/-- Every type is found under its name. -/
theorem Sound.get?_name (hr : r.Sound) (h : (key, t) ∈ r.types) : r.get? t.name = some t :=
  get?_of_type (hr.filed key t h ▸ Assoc.get?_of_mem hr.distinct h)

end Find

/-! ### Calls -/

/-- A call that may change a registry. -/
inductive Call where
  /-- Registers a class under the plugin type declared for it, or under standard terms. -/
  | register (d : PluginDeclaration)
  /-- Registers a class under a plugin type that is handed in. -/
  | registerAs (c : PluginClass) (t : PluginType)
  | registerModule (m : PluginModule) (category : Option String)
  | freeze

/-- The plugin types of a call were made of the classes that they are for. -/
def Call.Proper : Call → Prop
  | .register d => d.Proper
  | .registerAs c t => t.IsOf c
  | .registerModule m _ => m.Proper
  | .freeze => True

/-- A call registers one class. -/
def Call.isSingle : Call → Bool
  | .register _ | .registerAs _ _ => true
  | _ => false

/-- What a call on a registry comes to: the error, if there is one, and the registry after it. -/
def run (r : Registry) : Call → Option ModuleError × Registry
  | .register d =>
    match r.registerDeclared d with
    | .error e => (some (.registration e), r)
    | .ok (_, r') => (none, r')
  | .registerAs c t =>
    match r.register c t with
    | .error e => (some (.registration e), r)
    | .ok r' => (none, r')
  | .registerModule m category =>
    match r.registerModule m category with
    | (.error e, r') => (some e, r')
    | (.ok _, r') => (none, r')
  | .freeze => (none, r.freeze)

/-- The registry after several calls, whether or not they make errors. -/
def runAll (r : Registry) (calls : List Call) : Registry :=
  calls.foldl (fun r call => (r.run call).2) r

section Calls

variable {r r' : Registry}

/-- A plugin type that a module offers is one that is declared in it. -/
theorem exists_declared_of_offered? {m : PluginModule} {category : Option String} {name : String}
    {t : PluginType} (h : offered? m category name = .ok (some t)) :
    ∃ d, m.members.get? name = some (.plugin d) ∧ d.declared = some t := by
  unfold offered? at h
  split at h
  · cases h
  · cases h
  · split at h
    · cases h
    · cases h
    · rename_i d hd
      obtain ⟨ht, _⟩ := Option.filter_eq_some_iff.1 (Except.ok.inj h)
      exact ⟨d, hd, ht⟩

/-- Registering names of a module changes the registry step by step. -/
theorem changes_registerNames {m : PluginModule} (hm : m.Proper) (category : Option String)
    (names : List String) (r : Registry) :
    Relation.ReflTransGen Change r (registerNames m category names r).2 := by
  induction names generalizing r with
  | nil => exact .refl
  | cons name names ih =>
    rw [registerNames]
    cases hoffered : offered? m category name with
    | error e => exact .refl
    | ok t? =>
      cases t? with
      | none => exact ih r
      | some t =>
        cases hregister : r.register t.pluginClass t with
        | error e =>
          simp only [hregister]
          exact .refl
        | ok r' =>
          obtain ⟨d, hmember, hd⟩ := exists_declared_of_offered? hoffered
          have ht : t.IsOf t.pluginClass := by
            have hof := hm name d hmember t hd
            rwa [hof.pluginClass_eq]
          have hrest : Relation.ReflTransGen Change r (registerNames m category names r').2 :=
            .head (.register ht hregister) (ih r')
          simp only [hregister]
          split <;> rename_i hnames <;> simpa [hnames] using hrest

/-- Every call comes to a sequence of changes. -/
theorem changes_run {call : Call} (hcall : call.Proper) :
    Relation.ReflTransGen Change r (r.run call).2 := by
  cases call with
  | register d =>
    cases ht : d.type with
    | error e =>
      have hrun : (r.run (.register d)).2 = r := by simp [run, registerDeclared, ht]
      rw [hrun]
    | ok t =>
      cases hregister : r.register d.pluginClass t with
      | error e =>
        have hrun : (r.run (.register d)).2 = r := by
          simp [run, registerDeclared, ht, hregister, Except.map]
        rw [hrun]
      | ok r' =>
        have hrun : (r.run (.register d)).2 = r' := by
          simp [run, registerDeclared, ht, hregister, Except.map]
        rw [hrun]
        exact .single (.register (hcall.isOf ht) hregister)
  | registerAs c t =>
    cases hregister : r.register c t with
    | error e =>
      have hrun : (r.run (.registerAs c t)).2 = r := by simp [run, hregister]
      rw [hrun]
    | ok r' =>
      have hrun : (r.run (.registerAs c t)).2 = r' := by simp [run, hregister]
      rw [hrun]
      exact .single (.register hcall hregister)
  | registerModule m category =>
    have hrun : (r.run (.registerModule m category)).2 = (r.registerModule m category).2 := by
      unfold run
      split <;> rename_i h <;> cases h
      split <;> rename_i h <;> simp [h]
    rw [hrun]
    exact changes_registerNames hcall category m.listed r
  | freeze => exact .single .freeze

/-- Calls change a registry step by step. -/
theorem changes_runAll {calls : List Call} (hcalls : ∀ call ∈ calls, call.Proper) :
    Relation.ReflTransGen Change r (r.runAll calls) := by
  induction calls generalizing r with
  | nil => exact .refl
  | cons call calls ih =>
    have hrest := ih (r := (r.run call).2) fun other h => hcalls other (List.mem_cons_of_mem call h)
    exact (changes_run (hcalls call List.mem_cons_self)).trans hrest

/-- A call that registers one class and makes an error changes nothing. -/
theorem run_of_isSome {call : Call} (hcall : call.isSingle = true)
    (h : (r.run call).1.isSome = true) : (r.run call).2 = r := by
  cases call with
  | register d => cases hd : r.registerDeclared d <;> simp [run, hd] at h ⊢
  | registerAs c t => cases ht : r.register c t <;> simp [run, ht] at h ⊢
  | registerModule | freeze => cases hcall

/-- Where registering names of a module makes an error, those before the name at fault are
registered, and that name changes nothing. -/
theorem registerNames_eq_error {m : PluginModule} {category : Option String} {names : List String}
    {e : ModuleError} (h : registerNames m category names r = (.error e, r')) :
    ∃ before name after ts, names = before ++ name :: after ∧
      registerNames m category before r = (.ok ts, r') ∧
      registerNames m category [name] r' = (.error e, r') := by
  induction names generalizing r with
  | nil => cases h
  | cons name names ih =>
    rw [registerNames] at h
    cases hoffered : offered? m category name with
    | error e' =>
      simp only [hoffered, Prod.mk.injEq, Except.error.injEq] at h
      obtain ⟨rfl, rfl⟩ := h
      exact ⟨[], name, names, [], rfl, rfl, by simp [registerNames, hoffered]⟩
    | ok t? =>
      cases t? with
      | none =>
        simp only [hoffered] at h
        obtain ⟨before, name', after, ts, rfl, hbefore, hname⟩ := ih h
        exact ⟨name :: before, name', after, ts, rfl, by simp [registerNames, hoffered, hbefore],
          hname⟩
      | some t =>
        cases hregister : r.register t.pluginClass t with
        | error e' =>
          simp only [hoffered, hregister, Prod.mk.injEq, Except.error.injEq] at h
          obtain ⟨rfl, rfl⟩ := h
          exact ⟨[], name, names, [], rfl, rfl, by simp [registerNames, hoffered, hregister]⟩
        | ok r₁ =>
          simp only [hoffered, hregister] at h
          split at h <;> rename_i hrest <;> cases h
          obtain ⟨before, name', after, ts, rfl, hbefore, hname⟩ := ih hrest
          exact ⟨name :: before, name', after, t :: ts, rfl,
            by simp [registerNames, hoffered, hregister, hbefore], hname⟩

end Calls

/-! ### What holds after any calls -/

/-- Proper calls on a new registry lead to a registry. -/
def Reachable (r : Registry) : Prop :=
  ∃ calls : List Call, (∀ call ∈ calls, call.Proper) ∧ r = empty.runAll calls

/-- What calls lead to is sound. -/
theorem Reachable.sound {r : Registry} (h : r.Reachable) : r.Sound := by
  obtain ⟨calls, hcalls, rfl⟩ := h
  exact sound_empty.changes (changes_runAll hcalls)

/-- Whatever is called on a new registry, its types stand under their names in lower case and are
found under them, its aliases lead to types, and looking a name up does not fail and finds a type
just if the name is known. Whatever is called after it, a name finds the class that it belongs to,
in any case; once the registry is closed, nothing changes it. Registering one class changes nothing
if it makes an error, and registering a module then leaves what the names before the one at fault
do. -/
theorem invariant_of_reachable {r : Registry} (hr : r.Reachable) :
    (∀ key t, (key, t) ∈ r.types → key = lower t.name ∧ r.get? t.name = some t) ∧
      (∀ a key, (a, key) ∈ r.aliases → ∃ t, (key, t) ∈ r.types) ∧
      (∀ name, r.find name = .ok (r.get? name) ∧ (r.get? name).isSome = r.contains name) ∧
      (∀ key t, (key, t) ∈ r.types → ∀ calls : List Call, (∀ call ∈ calls, call.Proper) →
        ∀ name, lower name = key →
          ∃ t', (r.runAll calls).get? name = some t' ∧ t'.pluginClass.key = t.pluginClass.key) ∧
      (∀ call, call.isSingle = true → (r.run call).1.isSome = true → (r.run call).2 = r) ∧
      (∀ m category e r', r.registerModule m category = (.error e, r') →
        ∃ before name after ts, m.listed = before ++ name :: after ∧
          registerNames m category before r = (.ok ts, r') ∧
          registerNames m category [name] r' = (.error e, r')) ∧
      ∀ calls : List Call, (∀ call ∈ calls, call.Proper) → r.freeze.runAll calls = r.freeze := by
  have hsound := hr.sound
  refine ⟨?_, ?_, ?_, ?_, ?_, ?_, ?_⟩
  · intro key t ht
    exact ⟨hsound.filed key t ht, hsound.get?_name ht⟩
  · intro a key ha
    obtain ⟨t, ht⟩ := hsound.led a key ha
    exact ⟨t, Assoc.mem_of_get? ht⟩
  · intro name
    exact ⟨hsound.find_eq name, hsound.isSome_get? name⟩
  · rintro key t ht calls hcalls name rfl
    obtain ⟨t', ht', hclass⟩ := exists_type_of_changes (changes_runAll hcalls)
      (Assoc.get?_of_mem hsound.distinct ht)
    exact ⟨t', get?_of_type ht', hclass⟩
  · intro call hcall herror
    exact run_of_isSome hcall herror
  · intro m category e r' herror
    exact registerNames_eq_error herror
  · intro calls hcalls
    exact eq_of_changes (changes_runAll hcalls) rfl

/-- A rate limiter keeps its name when another class is to be registered under it, and is still
found under its alias. -/
theorem invariant_of_reachable_rate :
    let rate := PluginType.idle 0 "Rate" ["Throttle"]
    let r := empty.runAll [.registerAs rate.pluginClass rate]
    let other := PluginType.idle 1 "RATE" []
    r.Reachable ∧ (r.get? "throttle").isSome = true ∧
      ∃ t, (r.runAll [.registerAs other.pluginClass other]).get? "rate" = some t ∧
        t.pluginClass.key = 0 := by
  intro rate r other
  have hreachable : r.Reachable :=
    ⟨[.registerAs rate.pluginClass rate],
      List.forall_mem_singleton.2 (PluginType.isOf_idle 0 "Rate" ["Throttle"]), rfl⟩
  have htypes : (lower "Rate", rate) ∈ r.types := List.mem_singleton.2 rfl
  obtain ⟨_, _, hfind, hkeep, _⟩ := invariant_of_reachable hreachable
  have hother : ∀ call ∈ [Call.registerAs other.pluginClass other], call.Proper :=
    List.forall_mem_singleton.2 (PluginType.isOf_idle 1 "RATE" [])
  exact ⟨hreachable, (hfind "throttle").2.trans (by decide),
    hkeep (lower "Rate") rate htypes [.registerAs other.pluginClass other] hother "rate"
      (by decide)⟩

end Registry
end ConfigAssembly
