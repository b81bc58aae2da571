import Mathlib.Data.List.Nodup
import Mathlib.Data.List.TakeWhile
import ConfigAssembly.Conversion

/-!
# Members of enumerations by their names

A text is converted to the member whose name it is, blanks around it and case set aside. Of several
members whose names differ in case only, the text is the name of the first one
(`EnumType.IsFirstNamed`, `Converters.convert_of_isFirstNamed`); so the name of a member leads
back to the member just if no member before it has a name that agrees with it but for case
(`Converters.convert_memberName`).
-/

namespace ConfigAssembly

open ConfigAssembly.Text

/-! ### The first member of a name -/

/-- A member is the first one of an enumeration that goes by a name. -/
def EnumType.IsFirstNamed (e : EnumType) (name : String) (m : String × Int) : Prop :=
  ∃ before after, e.canonical = before ++ m :: after ∧ sameName m.1 name = true ∧
    ∀ m' ∈ before, sameName m'.1 name = false

namespace EnumType

variable {e : EnumType} {name : String} {m : String × Int}

/-- The member that is found is the first one of the name. -/
theorem find?_eq_some_iff : e.canonical.find? (fun m => sameName m.1 name) = some m ↔
    e.IsFirstNamed name m := by
  rw [List.find?_eq_some_iff_append]
  constructor
  · rintro ⟨hsame, before, after, hsplit, hbefore⟩
    exact ⟨before, after, hsplit, hsame, fun m' hm' => by simpa using hbefore m' hm'⟩
  · rintro ⟨before, after, hsplit, hsame, hbefore⟩
    exact ⟨hsame, before, after, hsplit, fun m' hm' => by simpa using hbefore m' hm'⟩

/-- A name of one of the members is that of a first one. -/
theorem exists_isFirstNamed (hm : m ∈ e.canonical) (hsame : sameName m.1 name = true) :
    ∃ first, e.IsFirstNamed name first := by
  have hsome : (e.canonical.find? fun m => sameName m.1 name).isSome = true := by
    rw [List.find?_isSome]
    exact ⟨m, hm, hsame⟩
  obtain ⟨first, hfirst⟩ := Option.isSome_iff_exists.1 hsome
  exact ⟨first, find?_eq_some_iff.1 hfirst⟩

/-- Where the names are distinct, a member is the first of its own name just if no member before it
goes by this name. -/
theorem isFirstNamed_self_iff (hdistinct : (e.canonical.map (·.1)).Nodup)
    {before after : List (String × Int)} (hsplit : e.canonical = before ++ m :: after) :
    e.IsFirstNamed m.1 m ↔ ∀ m' ∈ before, sameName m'.1 m.1 = false := by
  refine ⟨fun hfirst m' hm' => ?_, fun hbefore => ⟨before, after, hsplit, sameName_self _, hbefore⟩⟩
  have hnot : m ∉ before := by
    have hnodup : (before ++ m :: after).Nodup := hsplit ▸ hdistinct.of_map
    exact fun hmem => (List.nodup_append.1 hnodup).2.2 m hmem m List.mem_cons_self rfl
  -- What is found among the members before is found in the whole, and is not the member itself.
  have hfind := find?_eq_some_iff.2 hfirst
  rw [hsplit, List.find?_append] at hfind
  cases hearlier : before.find? fun m' => sameName m'.1 m.1 with
  | none => simpa using List.find?_eq_none.1 hearlier m' hm'
  | some x =>
    rw [hearlier, Option.some_or] at hfind
    exact absurd (Option.some.inj hfind ▸ List.mem_of_find?_eq_some hearlier) hnot

end EnumType

namespace Converters

variable {e : EnumType} {s : String}

/-- A text is converted to the first member that goes by it. -/
theorem convert_of_isFirstNamed (cs : Converters) {name : String} {m : String × Int}
    (hname : trim s = name) (h : e.IsFirstNamed name m) :
    cs.convert (.enum e) s = .ok (.member e.name m.1 m.2) := by
  have hfind := EnumType.find?_eq_some_iff.2 h
  unfold sameName at hfind
  rw [convert, convertMember, hname, hfind]

/-- A text that no member goes by is refused. -/
theorem convert_of_not_named (cs : Converters)
    (h : ∀ m ∈ e.canonical, sameName m.1 (trim s) = false) :
    cs.convert (.enum e) s =
      .error (.conversion ⟨s, .enum e, .notMember (e.canonical.map (·.1))⟩) := by
  have hfind : e.canonical.find? (fun m => lower m.1 == lower (trim s)) = none := by
    rw [List.find?_eq_none]
    intro m hm
    rw [Bool.not_eq_true]
    exact h m hm
  rw [convert, convertMember, hfind]

/-- The name of a member, with any blanks around it, is converted to the first member whose name
agrees with it but for case. This is the member itself just if no member before it has such a name.
A text whose name, without the blanks around it, is that of no member, whatever the case, is
refused. -/
theorem convert_memberName (cs : Converters) (e : EnumType)
    (hdistinct : (e.canonical.map (·.1)).Nodup) (htrim : ∀ m ∈ e.canonical, trim m.1 = m.1) :
    (∀ earlier m later, e.canonical = earlier ++ m :: later → ∀ before after,
      (∀ c ∈ before, isBlank c = true) → (∀ c ∈ after, isBlank c = true) →
        let r := cs.convert (.enum e) (String.ofList (before ++ m.1.toList ++ after))
        (∃ first, e.IsFirstNamed m.1 first ∧ r = .ok (.member e.name first.1 first.2)) ∧
          (r = .ok (.member e.name m.1 m.2) ↔ ∀ m' ∈ earlier, sameName m'.1 m.1 = false)) ∧
      ∀ s, (∀ m ∈ e.canonical, sameName m.1 (trim s) = false) →
        cs.convert (.enum e) s =
          .error (.conversion ⟨s, .enum e, .notMember (e.canonical.map (·.1))⟩) := by
  refine ⟨?_, fun s hs => convert_of_not_named cs hs⟩
  intro earlier m later hsplit before after hbefore hafter r
  have hm : m ∈ e.canonical := by simp [hsplit]
  have hname : trim (String.ofList (before ++ m.1.toList ++ after)) = m.1 := by
    rw [trim, String.toList_ofList, trimBy_append _ hbefore hafter]
    exact htrim m hm
  obtain ⟨first, hfirst⟩ := EnumType.exists_isFirstNamed hm (sameName_self m.1)
  have hr : r = .ok (.member e.name first.1 first.2) :=
    convert_of_isFirstNamed cs hname hfirst
  refine ⟨⟨first, hfirst, hr⟩, ?_⟩
  rw [← EnumType.isFirstNamed_self_iff hdistinct hsplit, hr]
  constructor
  · intro he
    obtain ⟨_, hfst, hsnd⟩ := Value.member.inj (Except.ok.inj he)
    have heq : first = m := Prod.ext hfst hsnd
    rwa [heq] at hfirst
  · intro hself
    have hfound := EnumType.find?_eq_some_iff.2 hfirst
    rw [EnumType.find?_eq_some_iff.2 hself] at hfound
    rw [Option.some.inj hfound]

/-- An enumeration with two members whose names differ in case only, and one whose lower case
depends on where its letters stand. -/
private def modes : EnumType := ⟨"Mode", [("A", 1), ("a", 2), ("ΤΕΛΟΣ", 3)]⟩

/-- All three members of the example have values of their own. -/
private theorem modes_canonical : modes.canonical = [("A", 1), ("a", 2), ("ΤΕΛΟΣ", 3)] := by
  decide +kernel

/-- A name between blanks leads back to its member, and another text is refused. -/
theorem convert_memberName_modes :
    standard.convert (.enum modes) " ΤΕΛΟΣ\t" = .ok (.member "Mode" "ΤΕΛΟΣ" 3) ∧
      ∃ failure, standard.convert (.enum modes) "b" = .error (.conversion failure) := by
  have hdistinct : (modes.canonical.map (·.1)).Nodup := by rw [modes_canonical]; decide
  have htrim : ∀ m ∈ modes.canonical, trim m.1 = m.1 := by rw [modes_canonical]; decide +kernel
  obtain ⟨hnames, hothers⟩ := convert_memberName standard modes hdistinct htrim
  constructor
  · have hblank : (∀ c ∈ [' '], isBlank c = true) ∧ ∀ c ∈ ['\t'], isBlank c = true :=
      ⟨List.forall_mem_singleton.2 rfl, List.forall_mem_singleton.2 rfl⟩
    obtain ⟨_, hself⟩ :=
      hnames [("A", 1), ("a", 2)] ("ΤΕΛΟΣ", 3) [] modes_canonical _ _ hblank.1 hblank.2
    refine hself.2 ?_
    decide +kernel
  · refine ⟨_, hothers "b" ?_⟩
    rw [modes_canonical]
    decide +kernel

/-- The name of a member does not always lead back to it. -/
theorem not_forall_convert_memberName :
    ¬ ∀ (cs : Converters) (e : EnumType), (e.canonical.map (·.1)).Nodup →
      (∀ m ∈ e.canonical, trim m.1 = m.1) → ∀ m ∈ e.canonical,
        cs.convert (.enum e) m.1 = .ok (.member e.name m.1 m.2) := by
  intro h
  have hdistinct : (modes.canonical.map (·.1)).Nodup := by rw [modes_canonical]; decide
  have htrim : ∀ m ∈ modes.canonical, trim m.1 = m.1 := by rw [modes_canonical]; decide +kernel
  have hlater := h standard modes hdistinct htrim ("a", 2) (by rw [modes_canonical]; decide)
  have hearlier : standard.convert (.enum modes) "a" = .ok (.member "Mode" "A" 1) := by
    have htext : trim "a" = "a" := by decide +kernel
    have hfirst : sameName "A" "a" = true := by decide +kernel
    exact convert_of_isFirstNamed standard htext
      ⟨[], [("a", 2), ("ΤΕΛΟΣ", 3)], modes_canonical, hfirst, List.forall_mem_nil _⟩
  exact absurd (hearlier.symm.trans hlater) (by simp)

end Converters
end ConfigAssembly
