import Mathlib.Data.List.Pairwise
import ConfigAssembly.Proofs.Plugin.Registration

/-!
# Which plugins of a module are registered

Registering a module comes to reading its names and then registering the types that they offer, one
after the other (`registerNames_eq_ok_iff`). Types can be registered one after the other just if the
registry is open and each name belongs to one class (`registerEach_eq_ok_iff`). A name offers the
type of the class that it is bound to if the class begins with the module: its module's name begins
with the name of this one. So the classes of modules below it are registered, but also those of
modules that merely have a longer name (`begins_iff`), and these are the only ones that do not
belong to the module (`registerModule_takes`).
-/

namespace ConfigAssembly

open ConfigAssembly.Text

/-- A plugin type of a class without entry points, which is defined in a given module. -/
def PluginType.idleIn (moduleName : String) (key : Nat) (name : String) : PluginType :=
  let c : PluginClass := ⟨key, name, moduleName, []⟩
  ⟨c, describe c .standard, ⟨none, none⟩⟩

/-- A module that binds its names to classes with declared plugin types. -/
def PluginModule.ofTypes (name : String) (types : Assoc String PluginType) : PluginModule :=
  ⟨name, types.keys, types.map fun e => (e.1, .plugin ⟨e.2.pluginClass, some e.2⟩)⟩

/-- A module of types that are those of their classes is proper. -/
theorem PluginModule.proper_ofTypes {name : String} {types : Assoc String PluginType}
    (h : ∀ e ∈ types, e.2.IsOf e.2.pluginClass) : (ofTypes name types).Proper := by
  intro bound d hd t ht
  obtain ⟨e, he, heq⟩ := List.mem_map.1 (Assoc.mem_of_get? hd)
  cases heq
  cases ht
  exact h e he

/-- A plugin type is of a category, if one is given. -/
def PluginType.IsWanted (category : Option String) (t : PluginType) : Prop :=
  category = none ∨ t.descriptor.category = category

namespace PluginModule

/-- A name is public if its first character is no underscore. -/
def IsPublic (name : String) : Prop :=
  ∃ c cs, name.toList = c :: cs ∧ c ≠ '_'

/-- A public name that a module lists is bound to a class with a declared plugin type. -/
def Binds (m : PluginModule) (name : String) (t : PluginType) : Prop :=
  name ∈ m.listed ∧ IsPublic name ∧
    ∃ d, m.members.get? name = some (.plugin d) ∧ d.declared = some t

/-- The names that a module lists have characters, and the public ones have members. -/
def Readable (m : PluginModule) : Prop :=
  ∀ name ∈ m.listed, name ≠ "" ∧ (IsPublic name → ∃ member, m.members.get? name = some member)

/-- A class is defined in a module or in one below it. -/
def Owns (m : PluginModule) (c : PluginClass) : Prop :=
  c.moduleName = m.name ∨ m.name.toList ++ ['.'] <+: c.moduleName.toList

/-- The name of a class's module begins with that of a module. -/
def Begins (m : PluginModule) (c : PluginClass) : Prop :=
  m.name.toList <+: c.moduleName.toList

/-- A plugin type is what a class that begins with a module is bound to there. -/
def Offers (m : PluginModule) (category : Option String) (t : PluginType) : Prop :=
  (∃ name, m.Binds name t) ∧ t.IsWanted category ∧ m.Begins t.pluginClass

/-- The empty name is not public. -/
theorem not_isPublic_empty : ¬ IsPublic "" := by
  simp [IsPublic]

/-- Nor is a name that begins with an underscore. -/
theorem not_isPublic_underscore {name : String} {cs : List Char} (h : name.toList = '_' :: cs) :
    ¬ IsPublic name := by
  rintro ⟨c, _, hc, hne⟩
  exact hne (List.cons.inj (hc.symm.trans h)).1

/-- All other names are. -/
theorem isPublic_cases (name : String) :
    name = "" ∨ (∃ cs, name.toList = '_' :: cs) ∨ IsPublic name := by
  rcases h : name.toList with _ | ⟨c, cs⟩
  · exact .inl (String.toList_eq_nil_iff.1 h)
  · by_cases hc : c = '_'
    · exact .inr (.inl ⟨cs, by rw [hc]⟩)
    · exact .inr (.inr ⟨c, cs, h, hc⟩)

/-- What begins with a module belongs to it, or to a module whose name goes on otherwise than with a
dot. -/
theorem begins_iff {m : PluginModule} {c : PluginClass} :
    m.Begins c ↔ m.Owns c ∨
      ∃ x rest, x ≠ '.' ∧ c.moduleName.toList = m.name.toList ++ x :: rest := by
  constructor
  · rintro ⟨rest, hrest⟩
    cases rest with
    | nil =>
      left
      left
      exact (String.toList_inj.1 (by simpa using hrest)).symm
    | cons x rest =>
      by_cases hx : x = '.'
      · left
        right
        exact ⟨rest, by simp [← hrest, hx]⟩
      · right
        exact ⟨x, rest, hx, hrest.symm⟩
  · rintro ((hsame | hbelow) | ⟨x, rest, _, hrest⟩)
    · exact ⟨[], by simp [hsame]⟩
    · exact (List.prefix_append _ _).trans hbelow
    · exact ⟨x :: rest, hrest.symm⟩

/-- A class does not belong to a module if its module's name goes on otherwise than with a dot. -/
theorem not_owns {m : PluginModule} {c : PluginClass} {x : Char} {rest : List Char} (hx : x ≠ '.')
    (hname : c.moduleName.toList = m.name.toList ++ x :: rest) : ¬ m.Owns c := by
  rintro (hsame | ⟨below, hbelow⟩)
  · simp [hsame] at hname
  · rw [hname, List.append_assoc, List.append_cancel_left_eq] at hbelow
    exact hx (List.cons.inj hbelow).1.symm

end PluginModule

namespace Registry

/-! ### What a name offers -/

section Offered

variable {m : PluginModule} {category : Option String} {name : String}

/-- A name that begins with an underscore is passed over. -/
theorem offered?_of_underscore {cs : List Char} (h : name.toList = '_' :: cs) :
    offered? m category name = .ok none := by
  rw [offered?, h]
  rfl

/-- A public name is looked up, and what is found is offered if its module and its category fit. -/
theorem offered?_of_isPublic (h : PluginModule.IsPublic name) :
    offered? m category name = match m.members.get? name with
      | none => .error (.noMember m.name name)
      | some .other => .ok none
      | some (.plugin d) => .ok (d.declared.filter fun t =>
          m.name.toList.isPrefixOf d.pluginClass.moduleName.toList &&
            (category.isNone || t.descriptor.category == category)) := by
  obtain ⟨c, cs, hname, hc⟩ := h
  unfold offered?
  split
  · next hnil => simp [hnil] at hname
  · next htail =>
    rw [htail] at hname
    exact absurd (List.cons.inj hname).1.symm hc
  · rfl

/-- A listed name can be read if it has characters and, if it is public, a member. -/
theorem exists_offered?_iff : (∃ o, offered? m category name = .ok o) ↔
    name ≠ "" ∧ (PluginModule.IsPublic name → ∃ member, m.members.get? name = some member) := by
  rcases PluginModule.isPublic_cases name with rfl | ⟨cs, hcs⟩ | hpublic
  · simp [offered?]
  · have hne : name ≠ "" := by
      rintro rfl
      cases hcs
    simp [offered?_of_underscore hcs, PluginModule.not_isPublic_underscore hcs, hne]
  · have hne : name ≠ "" := by
      rintro rfl
      exact PluginModule.not_isPublic_empty hpublic
    rw [offered?_of_isPublic hpublic]
    cases m.members.get? name with
    | none => simp [hpublic]
    | some member => cases member <;> simp [hne]

/-- A proper module's name offers the type of its class if the class begins with the module. -/
theorem offered?_eq_some_iff (hm : m.Proper) {t : PluginType} (hname : name ∈ m.listed) :
    offered? m category name = .ok (some t) ↔
      m.Binds name t ∧ t.IsWanted category ∧ m.Begins t.pluginClass := by
  unfold PluginModule.Binds PluginType.IsWanted
  rcases PluginModule.isPublic_cases name with rfl | ⟨cs, hcs⟩ | hpublic
  · simp [offered?, PluginModule.not_isPublic_empty]
  · simp [offered?_of_underscore hcs, PluginModule.not_isPublic_underscore hcs]
  · rw [offered?_of_isPublic hpublic]
    cases hget : m.members.get? name with
    | none => simp
    | some member =>
      cases member with
      | other => simp
      | plugin d =>
        have hclass : d.declared = some t → t.pluginClass = d.pluginClass :=
          fun h => (hm name d hget t h).pluginClass_eq
        simp only [Except.ok.injEq, Option.filter_eq_some_iff, Bool.and_eq_true,
          List.isPrefixOf_iff_prefix, Bool.or_eq_true, Option.isNone_iff_eq_none, beq_iff_eq]
        constructor
        · rintro ⟨ht, hbegins, hcategory⟩
          refine ⟨⟨hname, hpublic, d, rfl, ht⟩, hcategory, ?_⟩
          rw [PluginModule.Begins, hclass ht]
          exact hbegins
        · rintro ⟨⟨_, _, d', hd', ht⟩, hcategory, hbegins⟩
          cases hd'
          rw [PluginModule.Begins, hclass ht] at hbegins
          exact ⟨ht, hbegins, hcategory⟩

end Offered

/-! ### Registering one after the other -/

/-- Registers plugin types one after the other, each for its class. -/
def registerEach (r : Registry) (ts : List PluginType) : Except RegistrationError Registry :=
  ts.foldlM (fun r t => r.register t.pluginClass t) r

/-- The types that names of a module offer. -/
def offers (m : PluginModule) (category : Option String) (names : List String) : List PluginType :=
  names.filterMap fun name => (offered? m category name).toOption.join

/-- Two plugin types of one name are of one class. -/
def Agree (t u : PluginType) : Prop :=
  lower t.name = lower u.name → t.pluginClass.key = u.pluginClass.key

/-- The name of a plugin type is free in a registry or belongs to its class. -/
def Admits (r : Registry) (t : PluginType) : Prop :=
  ∀ u, r.types.get? (lower t.name) = some u → u.pluginClass.key = t.pluginClass.key

/-- Writing a type changes what is found under its name only. -/
theorem types_get?_write (r : Registry) (t : PluginType) (key : String) :
    (r.write t).types.get? key = if lower t.name == key then some t else r.types.get? key :=
  r.types.get?_insert _ _ _

/-- Once a type is registered, another is admitted if it was before and the two agree. -/
theorem admits_write_iff {r : Registry} {t u : PluginType} (ht : r.Admits t) :
    (r.write t).Admits u ↔ r.Admits u ∧ Agree t u := by
  unfold Admits Agree
  rw [types_get?_write]
  by_cases hname : lower t.name = lower u.name
  · simp only [hname, beq_self_eq_true, if_true, forall_const]
    constructor
    · intro h
      have htu := h t rfl
      exact ⟨fun v hv => (ht v (hname ▸ hv)).trans htu, htu⟩
    · rintro ⟨_, htu⟩ v hv
      exact Option.some.inj hv ▸ htu
  · simp [hname]

/-- The types are registered one after the other. -/
theorem registerEach_cons {r r' : Registry} {t : PluginType} {ts : List PluginType} :
    r.registerEach (t :: ts) = .ok r' ↔
      ∃ r₁, r.register t.pluginClass t = .ok r₁ ∧ r₁.registerEach ts = .ok r' := by
  rw [registerEach, List.foldlM_cons]
  cases r.register t.pluginClass t <;> simp [registerEach, bind, Except.bind]

/-- Plugin types can be registered one after the other just if the registry is open, and they agree
with it and with each other; then they are written to it. -/
theorem registerEach_eq_ok_iff {r r' : Registry} {ts : List PluginType} :
    r.registerEach ts = .ok r' ↔ (ts = [] ∨ r.frozen = false) ∧ (∀ t ∈ ts, r.Admits t) ∧
      ts.Pairwise Agree ∧ r' = ts.foldl write r := by
  induction ts generalizing r with
  | nil => simp [registerEach, pure, Except.pure, @eq_comm _ r]
  | cons t ts ih =>
    rw [registerEach_cons]
    constructor
    · rintro ⟨r₁, hregister, hrest⟩
      obtain ⟨hopen, hadmits, rfl⟩ := register_eq_ok_iff.1 hregister
      obtain ⟨_, hall, hpairs, rfl⟩ := ih.1 hrest
      have hthen : ∀ u ∈ ts, r.Admits u ∧ Agree t u :=
        fun u hu => (admits_write_iff hadmits).1 (hall u hu)
      exact ⟨.inr hopen, List.forall_mem_cons.2 ⟨hadmits, fun u hu => (hthen u hu).1⟩,
        List.pairwise_cons.2 ⟨fun u hu => (hthen u hu).2, hpairs⟩, rfl⟩
    · rintro ⟨hopen, hall, hpairs, rfl⟩
      have hopen : r.frozen = false := hopen.resolve_left (List.cons_ne_nil t ts)
      obtain ⟨hadmits, hrest⟩ := List.forall_mem_cons.1 hall
      obtain ⟨hagree, hpairs⟩ := List.pairwise_cons.1 hpairs
      refine ⟨r.write t, register_eq_ok_iff.2 ⟨hopen, hadmits, rfl⟩,
        ih.2 ⟨.inr hopen, fun u hu => ?_, hpairs, rfl⟩⟩
      exact (admits_write_iff hadmits).2 ⟨hrest u hu, hagree u hu⟩

/-- The types that were registered last stand under their names. -/
theorem types_get?_foldl_write (r : Registry) (ts : List PluginType) (key : String) :
    (ts.foldl write r).types.get? key =
      (ts.reverse.find? fun t => lower t.name == key).or (r.types.get? key) := by
  induction ts generalizing r with
  | nil => rfl
  | cons t ts ih =>
    rw [List.foldl_cons, ih, types_get?_write, List.reverse_cons, List.find?_append]
    by_cases hkey : lower t.name = key <;> simp [hkey]

/-- If registering names of a module succeeds, all of them could be read, and the types that they
offer were registered one after the other. -/
theorem registerNames_eq_ok_iff {m : PluginModule} {category : Option String} {names : List String}
    {r r' : Registry} {ts : List PluginType} :
    registerNames m category names r = (.ok ts, r') ↔
      (∀ name ∈ names, ∃ o, offered? m category name = .ok o) ∧ ts = offers m category names ∧
        r.registerEach ts = .ok r' := by
  induction names generalizing r ts with
  | nil =>
    constructor
    · intro h
      obtain ⟨hts, rfl⟩ := Prod.mk.inj h
      rw [← Except.ok.inj hts]
      exact ⟨by simp, rfl, rfl⟩
    · rintro ⟨_, rfl, h⟩
      rw [← Except.ok.inj h]
      rfl
  | cons name names ih =>
    rw [registerNames, List.forall_mem_cons]
    cases hoffered : offered? m category name with
    | error e => simp
    | ok o =>
      have hoffers : offers m category (name :: names) = o.toList ++ offers m category names := by
        cases o <;> simp [offers, hoffered, Except.toOption]
      cases o with
      | none => simp [ih, hoffers]
      | some t =>
        rw [hoffers]
        constructor
        · intro h
          cases hregister : r.register t.pluginClass t with
          | error e => simp [hregister] at h
          | ok r₁ =>
            rcases hrest : registerNames m category names r₁ with ⟨us | us, r₂⟩
            · simp [hregister, hrest] at h
            · simp only [hregister, hrest, Prod.mk.injEq, Except.ok.injEq] at h
              obtain ⟨rfl, rfl⟩ := h
              obtain ⟨hread, rfl, heach⟩ := ih.1 hrest
              exact ⟨⟨⟨_, rfl⟩, hread⟩, rfl, registerEach_cons.2 ⟨r₁, hregister, heach⟩⟩
        · rintro ⟨⟨_, hread⟩, rfl, heach⟩
          obtain ⟨r₁, hregister, hrest⟩ := registerEach_cons.1 heach
          simp [hregister, ih.2 ⟨hread, rfl, hrest⟩]

/-! ### Registering a module -/

instance : Std.Symm Agree := ⟨fun _ _ h hname => (h hname.symm).symm⟩

/-- What a proper module offers. -/
theorem mem_offers_iff {m : PluginModule} (hm : m.Proper) {category : Option String}
    {t : PluginType} : t ∈ offers m category m.listed ↔ m.Offers category t := by
  have hjoin : ∀ name, (offered? m category name).toOption.join = some t ↔
      offered? m category name = .ok (some t) := by
    intro name
    cases offered? m category name <;> simp [Except.toOption]
  simp only [offers, List.mem_filterMap, hjoin]
  constructor
  · rintro ⟨name, hname, h⟩
    obtain ⟨hbinds, hwanted, hbegins⟩ := (offered?_eq_some_iff hm hname).1 h
    exact ⟨⟨name, hbinds⟩, hwanted, hbegins⟩
  · rintro ⟨⟨name, hbinds⟩, hwanted, hbegins⟩
    exact ⟨name, hbinds.1, (offered?_eq_some_iff hm hbinds.1).2 ⟨hbinds, hwanted, hbegins⟩⟩

/-- A module is registered just if its names can be read and what it offers can be registered; then
what it offers is written to the registry in the order of the names. -/
theorem registerModule_eq_ok_iff {m : PluginModule} (hm : m.Proper) {category : Option String}
    {r r' : Registry} {ts : List PluginType} :
    r.registerModule m category = (.ok ts, r') ↔
      (m.Readable ∧ ((∃ t, m.Offers category t) → r.frozen = false) ∧
        (∀ t, m.Offers category t → r.Admits t) ∧
        ∀ t u, m.Offers category t → m.Offers category u → Agree t u) ∧
      ts = offers m category m.listed ∧ r' = ts.foldl write r := by
  have hread : (∀ name ∈ m.listed, ∃ o, offered? m category name = .ok o) ↔ m.Readable :=
    forall₂_congr fun _ _ => exists_offered?_iff
  have hpairs : (offers m category m.listed).Pairwise Agree ↔
      ∀ t u, m.Offers category t → m.Offers category u → Agree t u := by
    simp only [← mem_offers_iff hm]
    constructor
    · intro h t u ht hu
      exact h.forall_of_forall (fun _ _ _ => rfl) ht hu
    · intro h
      exact List.pairwise_of_forall_mem_list fun t ht u hu => h t u ht hu
  have hnone : (offers m category m.listed = [] ∨ r.frozen = false) ↔
      ((∃ t, m.Offers category t) → r.frozen = false) := by
    simp only [← mem_offers_iff hm]
    rcases offers m category m.listed with _ | ⟨t, ts⟩ <;> simp
  rw [registerModule, registerNames_eq_ok_iff, registerEach_eq_ok_iff, hread, ← hnone, ← hpairs]
  simp only [← mem_offers_iff hm]
  constructor
  · rintro ⟨hreadable, rfl, hopen, hadmits, hagree, rfl⟩
    exact ⟨⟨hreadable, hopen, hadmits, hagree⟩, rfl, rfl⟩
  · rintro ⟨⟨hreadable, hopen, hadmits, hagree⟩, rfl, rfl⟩
    exact ⟨hreadable, rfl, hopen, hadmits, hagree, rfl⟩

/-- Registering a proper module succeeds if and only if its names can be read, the registry is open
unless nothing is offered, and the names of the types that are offered are free or belong to their
classes. Then just these are registered, and the last of each name stands under it. They are the
types of the module's own classes, bound to public names, unless there is one whose module has a
longer name that goes on otherwise than with a dot. -/
theorem registerModule_takes {m : PluginModule} (hm : m.Proper) (category : Option String)
    (r : Registry) :
    ((∃ ts r', r.registerModule m category = (.ok ts, r')) ↔
      m.Readable ∧ ((∃ t, m.Offers category t) → r.frozen = false) ∧
        (∀ t, m.Offers category t → r.Admits t) ∧
        ∀ t u, m.Offers category t → m.Offers category u → Agree t u) ∧
      ∀ ts r', r.registerModule m category = (.ok ts, r') →
        (∀ t, t ∈ ts ↔ m.Offers category t) ∧
        (∀ key, r'.types.get? key =
          (ts.reverse.find? fun t => lower t.name == key).or (r.types.get? key)) ∧
        ((∀ t, t ∈ ts ↔ (∃ name, m.Binds name t) ∧ t.IsWanted category ∧ m.Owns t.pluginClass) ↔
          ¬ ∃ t ∈ ts, ∃ x rest, x ≠ '.' ∧
            t.pluginClass.moduleName.toList = m.name.toList ++ x :: rest) := by
  refine ⟨?_, ?_⟩
  · constructor
    · rintro ⟨ts, r', h⟩
      exact ((registerModule_eq_ok_iff hm).1 h).1
    · intro h
      exact ⟨_, _, (registerModule_eq_ok_iff hm).2 ⟨h, rfl, rfl⟩⟩
  · intro ts r' h
    obtain ⟨_, hts, rfl⟩ := (registerModule_eq_ok_iff hm).1 h
    have hmem : ∀ t, t ∈ ts ↔ m.Offers category t := fun t => hts ▸ mem_offers_iff hm
    refine ⟨hmem, types_get?_foldl_write r ts, ?_⟩
    simp only [hmem]
    constructor
    · rintro howned ⟨t, ht, x, rest, hx, hname⟩
      obtain ⟨_, _, howns⟩ := (howned t).1 ht
      exact PluginModule.not_owns hx hname howns
    · intro hnone t
      constructor
      · rintro ⟨hbinds, hwanted, hbegins⟩
        refine ⟨hbinds, hwanted, (PluginModule.begins_iff.1 hbegins).resolve_right ?_⟩
        rintro hlonger
        exact hnone ⟨t, ⟨hbinds, hwanted, hbegins⟩, hlonger⟩
      · rintro ⟨hbinds, hwanted, howns⟩
        exact ⟨hbinds, hwanted, PluginModule.begins_iff.2 (.inl howns)⟩

/-- Of a class of a module below, one of a module with a longer name and one under a private name,
the first two are registered. -/
theorem registerModule_takes_extra :
    let gauge := PluginType.idleIn "plugins.gauge" 0 "Gauge"
    let rate := PluginType.idleIn "plugins_extra" 1 "Rate"
    let spare := PluginType.idleIn "plugins" 2 "Spare"
    let m := PluginModule.ofTypes "plugins" [("Gauge", gauge), ("Rate", rate), ("_Spare", spare)]
    m.Proper ∧ m.Readable ∧ ∃ r, empty.registerModule m none = (.ok [gauge, rate], r) ∧
      m.Offers none rate ∧ ¬ m.Owns rate.pluginClass ∧ ¬ m.Offers none spare ∧
      r.types.get? "rate" = some rate := by
  intro gauge rate spare m
  have hproper : m.Proper := by
    apply PluginModule.proper_ofTypes
    intro e he
    simp only [List.mem_cons, List.not_mem_nil, or_false] at he
    rcases he with rfl | rfl | rfl <;> exact ⟨.standard, rfl⟩
  obtain ⟨hok, htakes⟩ := registerModule_takes hproper none empty
  have hrun : empty.registerModule m none =
      (.ok [gauge, rate], (empty.registerModule m none).2) := by
    dsimp only [m, gauge, rate, spare]
    rfl
  obtain ⟨hmem, hstand, _⟩ := htakes _ _ hrun
  have hother : spare ∉ [gauge, rate] := by
    intro h
    have hkey := List.mem_map_of_mem (f := (·.pluginClass.key)) h
    exact absurd hkey (by decide)
  have hname : lower rate.name = "rate" := by decide
  refine ⟨hproper, (hok.1 ⟨_, _, hrun⟩).1, _, hrun, (hmem rate).1 (by simp), ?_,
    fun h => hother ((hmem spare).2 h), (hstand "rate").trans (by simp [hname])⟩
  have hlonger : "plugins_extra".toList = "plugins".toList ++ '_' :: "extra".toList := by decide
  exact PluginModule.not_owns (by decide) hlonger

/-- Not all classes that are registered for a module are its own. -/
theorem not_forall_registerModule_owns :
    ¬ ∀ (m : PluginModule) (category : Option String) (r : Registry) (ts : List PluginType)
      (r' : Registry), m.Proper → r.registerModule m category = (.ok ts, r') →
        ∀ t, t ∈ ts ↔
          (∃ name, m.Binds name t) ∧ t.IsWanted category ∧ m.Owns t.pluginClass := by
  intro h
  let rate := PluginType.idleIn "plugins_extra" 0 "Rate"
  let m := PluginModule.ofTypes "plugins" [("Rate", rate)]
  have hproper : m.Proper :=
    PluginModule.proper_ofTypes (List.forall_mem_singleton.2 ⟨.standard, rfl⟩)
  have hrun : empty.registerModule m none = (.ok [rate], (empty.registerModule m none).2) := by
    dsimp only [m, rate]
    rfl
  obtain ⟨_, _, howns⟩ := (h m none empty _ _ hproper hrun rate).1 List.mem_cons_self
  have hlonger : "plugins_extra".toList = "plugins".toList ++ '_' :: "extra".toList := by decide
  exact PluginModule.not_owns (by decide) hlonger howns

end Registry
end ConfigAssembly
