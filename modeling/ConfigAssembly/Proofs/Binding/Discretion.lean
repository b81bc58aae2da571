import ConfigAssembly.Proofs.Binding.Sequence
import ConfigAssembly.Proofs.Conversion.Soundness
import ConfigAssembly.Proofs.Substitution.Round

/-!
# What visitors tell about the text of an attribute

An element whose attribute has one text is compared with the same element whose attribute has
another (`Node.withText`). A visitor is discreet if its two visits take the same and report the same
unless it takes the attribute, and report the same also then if the marker is sensitive, where the
results for the two texts correspond (`Visitor.Discreet`). The built-in visitors are discreet
(`VisitorRegistry.discreet_standard`).

So what is reported while inputs are bound depends on the text only where a visit takes the
attribute for a marker that is not sensitive. `Binder.disclosed` are the records of these visits:
two bindings report the same just when they disclose the same (`Binder.alike_inject`,
`Binder.alike_arguments`).
-/

namespace ConfigAssembly

/-- The entry of an attribute with a text in the place of its value, if it is that of a key. -/
def relabelled (key s : String) (a : String × Value) : String × Value :=
  if a.1 == key then (a.1, .str s) else a

/-- The node with a text as the value of an attribute that it has. -/
def Node.withText (n : Node) (key s : String) : Node :=
  { n with attributes := n.attributes.map (relabelled key s) }

/-- The key stays. -/
@[simp] theorem relabelled_fst (key s : String) (a : String × Value) :
    (relabelled key s a).1 = a.1 := by
  unfold relabelled
  split <;> rfl

namespace Taken

variable (c : Taken) (n : Node) (key s : String)

/-- The attributes that are free are those with their values replaced. -/
theorem freeAttributes_withText :
    c.freeAttributes (n.withText key s) = (c.freeAttributes n).map (relabelled key s) := by
  unfold freeAttributes Node.withText
  rw [List.filter_map]
  simp [Function.comp_def]

/-- Names find the same attribute, whatever its value. -/
theorem peekAttribute_withText (names : List String) :
    c.peekAttribute (n.withText key s) names =
      (c.peekAttribute n names).map (relabelled key s) := by
  have hnamed : ∀ name, c.attributeNamed (n.withText key s) name =
      (c.attributeNamed n name).map (relabelled key s) := by
    intro name
    have hsame : (fun a : String × Value => Text.sameName a.1 name) ∘ relabelled key s =
        fun a => Text.sameName a.1 name := by
      funext a
      rw [Function.comp_apply, relabelled_fst]
    rw [attributeNamed, freeAttributes_withText, ← List.map_reverse, List.find?_map, hsame]
    rfl
  unfold peekAttribute
  rw [funext hnamed, List.map_findSome?]
  rfl

/-- What is found was not taken before. -/
theorem not_mem_of_peekAttribute {names : List String} {a : String × Value}
    (h : c.peekAttribute n names = some a) : a.1 ∉ c.attributes := by
  obtain ⟨name, _, hname⟩ := List.exists_of_findSome?_eq_some h
  have hmem := List.mem_of_find?_eq_some hname
  rw [List.mem_reverse] at hmem
  simpa using (List.mem_filter.1 hmem).2

/-- Names find something else than the attribute, or nothing, and the text does not matter, or they
find the attribute, and it is taken from now on. -/
theorem takeAttribute_withText (names : List String) :
    (∀ s, c.takeAttribute (n.withText key s) names = c.takeAttribute n names) ∨
      key ∉ c.attributes ∧ ∃ c' : Taken, key ∈ c'.attributes ∧
        ∀ s, c.takeAttribute (n.withText key s) names = (some (key, .str s), c') := by
  cases hp : c.peekAttribute n names with
  | none =>
    left
    intro s
    simp [takeAttribute, peekAttribute_withText, hp]
  | some a =>
    by_cases ha : a.1 = key
    · refine Or.inr ⟨ha ▸ c.not_mem_of_peekAttribute n hp, c.markAttribute key, ?_, fun s => ?_⟩
      · exact mem_attributes_markAttribute.2 (Or.inl rfl)
      · simp [takeAttribute, peekAttribute_withText, hp, relabelled, ha]
    · left
      intro s
      simp [takeAttribute, peekAttribute_withText, hp, relabelled, ha]

/-- Children are found without looking at attributes. -/
theorem takeChildren_withText (names : List String) (firstOnly : Bool) :
    c.takeChildren (n.withText key s) names firstOnly = c.takeChildren n names firstOnly :=
  takeChildren_congr (show (n.withText key s).children = n.children from rfl) c names firstOnly

/-- What is left over is reported without any values. -/
theorem leftovers_withText (deferChildren : Bool) :
    c.leftovers (n.withText key s) deferChildren = c.leftovers n deferChildren := by
  have hkeys : (c.freeAttributes (n.withText key s)).map (·.1) =
      (c.freeAttributes n).map (·.1) := by
    simp [freeAttributes_withText, Function.comp_def]
  rw [leftovers, leftovers, unusedAttributes, unusedAttributes, hkeys]
  rfl

end Taken

/-- An attribute is taken in between. -/
def Taken.Takes (c c' : Taken) (key : String) : Prop := key ∉ c.attributes ∧ key ∈ c'.attributes

instance (c c' : Taken) (key : String) : Decidable (c.Takes c' key) :=
  inferInstanceAs (Decidable (_ ∧ _))

/-- Results of two runs correspond: both are values, or both are the same error, or both are refused
conversions, if refusals are allowed for. -/
inductive Matched {α : Type} (refusals : Prop) : Except InputError α → Except InputError α → Prop
  | ok (x x' : α) : Matched refusals (.ok x) (.ok x')
  | same (e : InputError) : Matched refusals (.error e) (.error e)
  | refused (h : refusals) (e e' : ConversionError) :
    Matched refusals (.error (.conversion e)) (.error (.conversion e'))

namespace Matched

variable {α : Type} {refusals : Prop} {r r' : Except InputError α}

/-- A result corresponds to itself. -/
theorem refl : (r : Except InputError α) → Matched refusals r r
  | .ok x => .ok x x
  | .error e => .same e

/-- Values correspond. -/
theorem of_isOk (h : r.isOk = true) (h' : r'.isOk = true) : Matched refusals r r' := by
  cases r with
  | error e => cases h
  | ok x =>
    cases r' with
    | error e => cases h'
    | ok x' => exact .ok x x'

/-- A conversion was refused. -/
def isRefusal : Except InputError α → Bool
  | .error (.conversion _) => true
  | _ => false

/-- Refused conversions correspond. -/
theorem of_isRefusal (hr : refusals) (h : isRefusal r = true) (h' : isRefusal r' = true) :
    Matched refusals r r' := by
  unfold isRefusal at h h'
  split at h
  · split at h'
    · exact .refused hr _ _
    · cases h'
  · cases h

/-- Refusals may be allowed for. -/
theorem mono {refusals' : Prop} (h : refusals → refusals') :
    Matched refusals r r' → Matched refusals' r r'
  | .ok x x' => .ok x x'
  | .same e => .same e
  | .refused hr e e' => .refused (h hr) e e'

end Matched

/-! ### Visits -/

namespace Visit

/-- Tokens are only replaced by texts, and texts are converted by the standard converters, as in
every binding. -/
structure Textual (v : Visit) : Prop where
  sources : ∀ sources, v.sources = some sources → sources.Textual
  converters : v.converters = .standard

/-- The visit of the element with a text as the value of an attribute. -/
def withText (v : Visit) (key s : String) : Visit := { v with node := v.node.withText key s }

/-- A visit takes something else than the attribute, or nothing, and the text does not matter, or it
takes the attribute and finds its text. -/
theorem takeAttribute_withText (v : Visit) (c : Taken) (key : String) :
    (∀ s, (v.withText key s).takeAttribute c = v.takeAttribute c) ∨
      key ∉ c.attributes ∧ ∃ c' : Taken, key ∈ c'.attributes ∧
        ∀ s, (v.withText key s).takeAttribute c = (.ok (some (.str s)), c') := by
  cases hname : v.marker.name with
  | none =>
    rcases c.takeAttribute_withText v.node key v.aliases with h | ⟨hfree, c', hmem, h⟩
    · left
      intro s
      simp [takeAttribute, withText, hname, h]
    · refine Or.inr ⟨hfree, c', hmem, fun s => ?_⟩
      simp [takeAttribute, withText, hname, h]
  | some name =>
    rcases c.takeAttribute_withText v.node key (v.aliases ++ [name]) with h | ⟨hfree, c', hmem, h⟩
    · left
      intro s
      simp [takeAttribute, withText, hname, h]
    · refine Or.inr ⟨hfree, c', hmem, fun s => ?_⟩
      simp [takeAttribute, withText, hname, h]

/-- Children are found without looking at attributes. -/
theorem takeChildren_withText (v : Visit) (c : Taken) (key : String) (firstOnly : Bool)
    (s : String) : (v.withText key s).takeChildren c firstOnly = v.takeChildren c firstOnly := by
  cases hname : v.marker.name with
  | none => simp only [takeChildren, withText, hname, Taken.takeChildren_withText]; rfl
  | some name => simp only [takeChildren, withText, hname, Taken.takeChildren_withText]

/-- A text stays a text when its tokens are replaced, unless a key cannot be looked up. -/
theorem substituted_str (v : Visit) (h : v.Textual) (s : String) :
    (∃ t, v.substituted (.str s) = .ok (.str t)) ∨
      ∃ f, v.substituted (.str s) = .error (.fault f) := by
  cases hsources : v.sources with
  | none => exact Or.inl ⟨s, by simp [substituted, hsources]⟩
  | some sources =>
    rcases (h.sources sources hsources).replaced_cases v.event s with hr | ⟨f, hr, _⟩
    · exact Or.inl ⟨sources.replace v.event s, by
        simp [substituted, hsources, Sources.replaceIn, hr, Except.map, Except.mapError]⟩
    · exact Or.inr ⟨f, by
        simp [substituted, hsources, Sources.replaceIn, hr, Except.map, Except.mapError]⟩

/-- A text is configured as a text, unless a fault keeps it from being used. -/
theorem configured_str (v : Visit) (h : v.Textual) (s : String) :
    (∃ t, v.configured (some (.str s)) = .ok (.str t)) ∨
      ∃ f, v.configured (some (.str s)) = .error (.fault f) := by
  cases hsubstitute : v.marker.substitute? with
  | none => exact Or.inr ⟨_, by simp only [configured, need, hsubstitute]; rfl⟩
  | some b =>
    cases b with
    | false => exact Or.inl ⟨s, by simp only [configured, need, hsubstitute]; rfl⟩
    | true =>
      rcases v.substituted_str h s with ⟨t, ht⟩ | ⟨f, hf⟩
      · exact Or.inl ⟨t, by simp only [configured, need, hsubstitute, ← ht]; rfl⟩
      · exact Or.inr ⟨f, by simp only [configured, need, hsubstitute, ← hf]; rfl⟩

/-- A text is there. -/
theorem demand_str (v : Visit) (s : String) (e : InputError) : v.demand (.str s) e = .ok () := rfl

/-- A conversion that fails refuses the text; it does not break down. -/
theorem converted_ne_fault {v : Visit} (h : v.Textual) (s : String) (f : Fault) :
    v.converted (.str s) ≠ .error (.fault f) := by
  have hvalue :
      v.converters.convertValue v.type (.str s) = Converters.standard.convert v.type s := by
    rw [h.converters]
    rfl
  rcases Converters.sound_convert v.type s with ⟨x, hx, _⟩ | ⟨e, he, _⟩
  · simp [converted, hvalue, hx]
  · simp [converted, hvalue, he, InputError.ofConversion]

end Visit

/-! ### Visitors -/

/-- A visitor tells nothing about the text of an attribute unless it takes the attribute, and then
it reports nothing about the text if the marker is sensitive and the results for the two texts
correspond; if they do, it makes as many records for the one as for the other. -/
structure Visitor.Discreet (d : Visitor) : Prop where
  taken : ∀ (v : Visit) (c : Taken) (key s s' : String), v.Textual →
    (d.visit (v.withText key s) c).taken = (d.visit (v.withText key s') c).taken
  untaken : ∀ (v : Visit) (c : Taken) (key s s' : String), v.Textual →
    ¬ c.Takes (d.visit (v.withText key s) c).taken key →
    Matched False (d.visit (v.withText key s) c).result (d.visit (v.withText key s') c).result ∧
      (d.visit (v.withText key s) c).log = (d.visit (v.withText key s') c).log
  sensitive : ∀ (v : Visit) (c : Taken) (key s s' : String), v.Textual →
    v.marker.sensitive? = some true →
    Matched True (d.visit (v.withText key s) c).result (d.visit (v.withText key s') c).result →
    (d.visit (v.withText key s) c).log = (d.visit (v.withText key s') c).log
  length : ∀ (v : Visit) (c : Taken) (key s s' : String), v.Textual →
    Matched True (d.visit (v.withText key s) c).result (d.visit (v.withText key s') c).result →
    (d.visit (v.withText key s) c).log.length = (d.visit (v.withText key s') c).log.length

namespace Visitor

/-- A visitor is discreet if each of its visits comes to the same for any two texts, apart from the
values that are delivered, or takes the attribute and reports as it should. -/
theorem Discreet.of_visits {d : Visitor}
    (h : ∀ (v : Visit) (c : Taken) (key : String), v.Textual →
      (∀ s s', (d.visit (v.withText key s) c).taken = (d.visit (v.withText key s') c).taken ∧
        Matched False (d.visit (v.withText key s) c).result
          (d.visit (v.withText key s') c).result ∧
        (d.visit (v.withText key s) c).log = (d.visit (v.withText key s') c).log) ∨
      ∃ c' : Taken, c.Takes c' key ∧ (∀ s, (d.visit (v.withText key s) c).taken = c') ∧
        ∀ s s', Matched True (d.visit (v.withText key s) c).result
            (d.visit (v.withText key s') c).result →
          (v.marker.sensitive? = some true →
            (d.visit (v.withText key s) c).log = (d.visit (v.withText key s') c).log) ∧
          (d.visit (v.withText key s) c).log.length =
            (d.visit (v.withText key s') c).log.length) :
    d.Discreet where
  taken v c key s s' hv := by
    rcases h v c key hv with hsame | ⟨c', _, htaken, _⟩
    · exact (hsame s s').1
    · rw [htaken, htaken]
  untaken v c key s s' hv hnot := by
    rcases h v c key hv with hsame | ⟨c', htakes, htaken, _⟩
    · exact (hsame s s').2
    · rw [htaken] at hnot
      exact absurd htakes hnot
  sensitive v c key s s' hv hsensitive hmatched := by
    rcases h v c key hv with hsame | ⟨c', _, _, hlog⟩
    · exact (hsame s s').2.2
    · exact (hlog s s' hmatched).1 hsensitive
  length v c key s s' hv hmatched := by
    rcases h v c key hv with hsame | ⟨c', _, _, hlog⟩
    · rw [(hsame s s').2.2]
    · exact (hlog s s' hmatched).2

/-- Visits that come to the same. -/
theorem same_of_eq {o o' : Outcome Value} (h : o = o') :
    o.taken = o'.taken ∧ Matched False o.result o'.result ∧ o.log = o'.log := by
  subst h
  exact ⟨rfl, .refl _, rfl⟩

/-- What a visit of an attribute comes to when it finds a text: a fault before anything is reported,
or a trace, which is masked if the marker is sensitive, and the result of a conversion. -/
theorem visit_ofAttribute {v : Visit} {c c' : Taken} {key : String} (hv : v.Textual) {s : String}
    (h : (v.withText key s).takeAttribute c = (.ok (some (.str s)), c')) :
    (∃ f, ofAttribute.visit (v.withText key s) c = ⟨.error (.fault f), c', []⟩) ∨
      ∃ (t : String) (sensitive : Bool), v.marker.sensitive? = some sensitive ∧
        ofAttribute.visit (v.withText key s) c =
          ⟨v.converted (.str t), c',
            [v.trace ("\"" ++ (if sensitive then mask else t) ++ "\"")]⟩ := by
  rcases v.configured_str hv s with ⟨t, ht⟩ | ⟨f, hf⟩
  · have ht' : (v.withText key s).configured (some (.str s)) = .ok (.str t) := ht
    cases hsensitive : v.marker.sensitive? with
    | none =>
      refine Or.inl ⟨Fault.missing v.marker.label "sensitive", ?_⟩
      have hneed : (v.withText key s).need "sensitive" (v.withText key s).marker.sensitive? =
          .error (.fault (Fault.missing v.marker.label "sensitive")) := by
        change v.need "sensitive" v.marker.sensitive? = _
        rw [hsensitive, Visit.need]
      simp [ofAttribute, h, ht', hneed]
    | some sensitive =>
      refine Or.inr ⟨t, sensitive, rfl, ?_⟩
      have hneed : (v.withText key s).need "sensitive" (v.withText key s).marker.sensitive? =
          .ok sensitive := by
        change v.need "sensitive" v.marker.sensitive? = _
        rw [hsensitive, Visit.need]
      simp only [ofAttribute, h, ht', hneed, Visit.demand_str]
      cases sensitive <;> rfl
  · have hf' : (v.withText key s).configured (some (.str s)) = .error (.fault f) := hf
    exact Or.inl ⟨f, by simp [ofAttribute, h, hf']⟩

/-- When a visit of an attribute does not find the text, it does not matter. -/
theorem visit_ofAttribute_of_untaken {v : Visit} {c : Taken} {key : String}
    (h : ∀ s, (v.withText key s).takeAttribute c = v.takeAttribute c) (s s' : String) :
    ofAttribute.visit (v.withText key s) c = ofAttribute.visit (v.withText key s') c := by
  simp only [ofAttribute, h]
  rfl

/-- A fault does not correspond to what comes of a conversion. -/
theorem not_matched_converted {v : Visit} (hv : v.Textual) {f : Fault} {t : String} :
    ¬ Matched True (.error (.fault f)) (v.converted (.str t)) ∧
      ¬ Matched True (v.converted (.str t)) (.error (.fault f)) := by
  have hne := Visit.converted_ne_fault hv t f
  constructor
  · intro h
    generalize v.converted (.str t) = r at h hne
    cases h
    exact hne rfl
  · intro h
    generalize v.converted (.str t) = r at h hne
    cases h
    exact hne rfl

/-- The visitor of attributes masks its trace if the marker is sensitive. -/
theorem discreet_ofAttribute : ofAttribute.Discreet := by
  apply Discreet.of_visits
  intro v c key hv
  rcases v.takeAttribute_withText c key with h | ⟨hfree, c', hmem, h⟩
  · exact Or.inl fun s s' => same_of_eq (visit_ofAttribute_of_untaken h s s')
  · refine Or.inr ⟨c', ⟨hfree, hmem⟩, fun s => ?_, fun s s' hmatched => ?_⟩
    · rcases visit_ofAttribute hv (h s) with ⟨f, hf⟩ | ⟨t, b, _, ht⟩
      · rw [hf]
      · rw [ht]
    · rcases visit_ofAttribute hv (h s) with ⟨f, hf⟩ | ⟨t, b, hb, ht⟩ <;>
        rcases visit_ofAttribute hv (h s') with ⟨f', hf'⟩ | ⟨t', b', hb', ht'⟩
      · rw [hf, hf']
        exact ⟨fun _ => rfl, rfl⟩
      · rw [hf, ht'] at hmatched
        exact absurd hmatched (not_matched_converted hv).1
      · rw [ht, hf'] at hmatched
        exact absurd hmatched (not_matched_converted hv).2
      · rw [ht, ht']
        refine ⟨fun hsensitive => ?_, rfl⟩
        obtain rfl : b = true := Option.some.inj (hb.symm.trans hsensitive)
        obtain rfl : b' = true := Option.some.inj (hb'.symm.trans hsensitive)
        rfl

/-- The visitor of elements does not look at attributes. -/
theorem discreet_ofElement : ofElement.Discreet := by
  apply Discreet.of_visits
  intro v c key _
  left
  intro s s'
  have htake : ∀ s, (v.withText key s).takeChildren c (!takesAll (v.withText key s).type) =
      v.takeChildren c (!takesAll v.type) := v.takeChildren_withText c key (!takesAll v.type)
  have hsame : ofElement.visit (v.withText key s) c = ofElement.visit (v.withText key s') c := by
    simp only [ofElement, htake]
    rfl
  exact same_of_eq hsame

/-- The visitor of texts makes no records. -/
theorem discreet_ofText : ofText.Discreet := by
  apply Discreet.of_visits
  intro v c key hv
  cases htext : v.node.text with
  | some text =>
    left
    intro s s'
    have hsame : ofText.visit (v.withText key s) c = ofText.visit (v.withText key s') c := by
      have htext' : ∀ s, (v.withText key s).node.text = some text := fun _ => htext
      simp only [ofText, htext']
      rfl
    exact same_of_eq hsame
  | none =>
    have htext' : ∀ s, (v.withText key s).node.text = none := fun _ => htext
    rcases v.takeAttribute_withText c key with h | ⟨hfree, c', hmem, h⟩
    · left
      intro s s'
      have hsame : ofText.visit (v.withText key s) c = ofText.visit (v.withText key s') c := by
        simp only [ofText, htext', h]
        rfl
      exact same_of_eq hsame
    · -- The attribute is taken in the place of the text, and nothing is traced.
      have hvisit : ∀ s, ∃ r, ofText.visit (v.withText key s) c = ⟨r, c', []⟩ := by
        intro s
        simp only [ofText, htext', h]
        split
        · exact ⟨_, rfl⟩
        · split <;> exact ⟨_, rfl⟩
      refine Or.inr ⟨c', ⟨hfree, hmem⟩, fun s => ?_, fun s s' _ => ?_⟩
      · obtain ⟨r, hr⟩ := hvisit s
        rw [hr]
      · obtain ⟨r, hr⟩ := hvisit s
        obtain ⟨r', hr'⟩ := hvisit s'
        rw [hr, hr']
        exact ⟨fun _ => rfl, rfl⟩

/-- The visitor of nodes delivers another element, and reports nothing. -/
theorem discreet_ofNode : ofNode.Discreet :=
  .of_visits fun _ _ _ _ => Or.inl fun _ _ => ⟨rfl, .ok _ _, rfl⟩

/-- The visitor of configurations does not look at the element. -/
theorem discreet_ofConfiguration : ofConfiguration.Discreet :=
  .of_visits fun _ _ _ _ => Or.inl fun _ _ => same_of_eq rfl

end Visitor

/-- All visitors of a registry are discreet. -/
def VisitorRegistry.Discreet (r : VisitorRegistry) : Prop :=
  ∀ kind d, r.find? kind = some d → d.Discreet

/-- The built-in visitors are discreet. -/
theorem VisitorRegistry.discreet_standard : standard.Discreet := by
  intro kind d hd
  have hmem := (eq_of_find?_standard hd).2
  simp only [List.mem_cons, List.not_mem_nil, or_false] at hmem
  rcases hmem with rfl | rfl | rfl | rfl | rfl
  · exact Visitor.discreet_ofAttribute
  · exact Visitor.discreet_ofElement
  · exact Visitor.discreet_ofText
  · exact Visitor.discreet_ofNode
  · exact Visitor.discreet_ofConfiguration

/-! ### Disclosures -/

/-- Two lists are of one length, and they are the same just in a given case. -/
structure SameWhen {α : Type} (p : Prop) (l l' : List α) : Prop where
  length : l.length = l'.length
  eq_iff : l = l' ↔ p

namespace SameWhen

variable {α : Type} {p q : Prop} {l l' m m' : List α}

/-- A list is the same as itself in every case. -/
theorem refl (l : List α) : SameWhen True l l := ⟨rfl, ⟨fun _ => trivial, fun _ => rfl⟩⟩

/-- Lists of one length are the same when they are. -/
theorem of_length (h : l.length = l'.length) : SameWhen (l = l') l l' := ⟨h, Iff.rfl⟩

/-- The case may be said in another way. -/
theorem of_iff (h : SameWhen p l l') (hpq : p ↔ q) : SameWhen q l l' :=
  ⟨h.length, h.eq_iff.trans hpq⟩

/-- Lists that are put together are the same when their parts are. -/
theorem append (h : SameWhen p l l') (h' : SameWhen q m m') :
    SameWhen (p ∧ q) (l ++ m) (l' ++ m') where
  length := by rw [List.length_append, List.length_append, h.length, h'.length]
  eq_iff := by
    rw [← h.eq_iff, ← h'.eq_iff]
    exact ⟨fun he => List.append_inj he h.length, fun ⟨he, he'⟩ => by rw [he, he']⟩

end SameWhen

/-- Two reports, and what is disclosed in each: the reports are the same just when the disclosures
are, and as many records are made and disclosed in the one as in the other. -/
structure Disclosing (l l' d d' : Log) : Prop where
  report : SameWhen (d = d') l l'
  length : d.length = d'.length

namespace Disclosing

variable {l l' m m' d d' e e' : Log}

/-- Where nothing is disclosed the reports are the same. -/
theorem same (l : Log) : Disclosing l l [] [] :=
  ⟨(SameWhen.refl l).of_iff ⟨fun _ => rfl, fun _ => trivial⟩, rfl⟩

/-- Everything may be disclosed. -/
theorem all (h : l.length = l'.length) : Disclosing l l' l l' := ⟨.of_length h, h⟩

/-- Reports that are put together disclose what their parts do. -/
theorem append (h : Disclosing l l' d d') (h' : Disclosing m m' e e') :
    Disclosing (l ++ m) (l' ++ m') (d ++ e) (d' ++ e') where
  report := (h.report.append h'.report).of_iff
    ((SameWhen.of_length h.length).append (.of_length h'.length)).eq_iff.symm
  length := by rw [List.length_append, List.length_append, h.length, h'.length]

end Disclosing

/-- What comes of two runs is alike: they take the same, their results correspond, and they report
the same just when they disclose the same. -/
structure Alike {α : Type} (refusals : Prop) (o o' : Outcome α) (d d' : Log) : Prop where
  taken : o.taken = o'.taken
  result : Matched refusals o.result o'.result
  log : Disclosing o.log o'.log d d'

/-- What is disclosed after a value was found. -/
def Outcome.rest {α : Type} (o : Outcome α) (k : Taken → Log) : Log :=
  match o.result with
  | .ok _ => k o.taken
  | .error _ => []

namespace Alike

variable {α β : Type} {refusals : Prop} {o o' : Outcome α} {d d' : Log}

/-- A run is like itself. -/
theorem refl (o : Outcome α) : Alike refusals o o [] [] := ⟨rfl, .refl o.result, .same o.log⟩

/-- Values may be found without a report. -/
theorem ok (x x' : α) (c : Taken) :
    Alike refusals (⟨.ok x, c, []⟩ : Outcome α) ⟨.ok x', c, []⟩ [] [] :=
  ⟨rfl, .ok x x', .same []⟩

/-- What goes on alike after what is alike is alike. -/
theorem bind {k k' : α → Taken → Outcome β} {e e' : Taken → Log}
    (h : Alike refusals o o' d d')
    (hk : ∀ x x', o.result = .ok x →
      Alike refusals (k x o.taken) (k' x' o.taken) (e o.taken) (e' o.taken)) :
    Alike refusals (o.bind k) (o'.bind k') (d ++ o.rest e) (d' ++ o'.rest e') := by
  obtain ⟨r, c, log⟩ := o
  obtain ⟨r', c', log'⟩ := o'
  obtain ⟨htaken, hresult, hlog⟩ := h
  obtain rfl : c = c' := htaken
  cases hresult with
  | ok x x' =>
    have hrest := hk x x' rfl
    exact ⟨hrest.taken, hrest.result, hlog.append hrest.log⟩
  | same e =>
    refine ⟨rfl, .same e, ?_⟩
    simpa [Outcome.rest, Outcome.bind] using hlog
  | refused h e e' =>
    refine ⟨rfl, .refused h e e', ?_⟩
    simpa [Outcome.rest, Outcome.bind] using hlog

/-- What goes on without disclosing anything leaves the disclosures as they are. -/
theorem bind_undisclosed {k k' : α → Taken → Outcome β} (h : Alike refusals o o' d d')
    (hk : ∀ x x', Alike refusals (k x o.taken) (k' x' o.taken) [] []) :
    Alike refusals (o.bind k) (o'.bind k') d d' := by
  have hrest : ∀ o : Outcome α, o.rest (fun _ => []) = [] := by
    rintro ⟨_ | _, _, _⟩ <;> rfl
  have hbind : Alike refusals (o.bind k) (o'.bind k') (d ++ o.rest fun _ => [])
      (d' ++ o'.rest fun _ => []) := h.bind fun x x' _ => hk x x'
  rwa [hrest, hrest, List.append_nil, List.append_nil] at hbind

end Alike

/-! ### Bindings -/

/-- What a visit discloses about an attribute: its records, if it takes the attribute for a marker
that is not sensitive. -/
def Visit.disclosed (v : Visit) (key : String) (c : Taken) (o : Outcome Value) : Log :=
  if c.Takes o.taken key ∧ v.marker.sensitive? ≠ some true then o.log else []

/-- Only the records of a visit tell about the text. -/
theorem Visit.disclosed_withText (v : Visit) (key s : String) (c : Taken) (o : Outcome Value) :
    (v.withText key s).disclosed key c o = v.disclosed key c o := rfl

namespace Binder

/-- The binder of the element with a text as the value of an attribute. -/
def withText (b : Binder) (key s : String) : Binder := { b with node := b.node.withText key s }

/-- What is disclosed about an attribute while markers are visited. -/
def disclosedFrom (b : Binder) (key : String) (i : Input) : List Marker → Taken → Log
  | [], _ => []
  | m :: ms, c =>
    match b.visitors.find? m.kind with
    | none => b.disclosedFrom key i ms c
    | some d =>
      let o := d.visit (b.occasion i m) c
      (b.occasion i m).disclosed key c o ++ o.rest (b.disclosedFrom key i ms)

/-- What is disclosed about an attribute while inputs are bound. -/
def disclosed (b : Binder) (key : String) : List Input → Taken → Log
  | [], _ => []
  | i :: is, c =>
    b.disclosedFrom key i i.markers c ++ (b.resolve i c).rest (b.disclosed key is)

section Corresponding

variable (b : Binder) (key s s' : String) (refusals : Prop)

/-- Where a visit of markers takes the attribute, the results for the two texts correspond. -/
def MatchedMarkers (i : Input) : List Marker → Taken → Prop
  | [], _ => True
  | m :: ms, c =>
    match b.visitors.find? m.kind with
    | none => MatchedMarkers i ms c
    | some d =>
      let o := d.visit ((b.occasion i m).withText key s) c
      let o' := d.visit ((b.occasion i m).withText key s') c
      (c.Takes o.taken key → Matched refusals o.result o'.result) ∧
        ∀ x, o.result = .ok x → MatchedMarkers i ms o.taken

/-- Where the attribute is taken while inputs are bound, the results for the two texts
correspond. -/
def MatchedInputs : List Input → Taken → Prop
  | [], _ => True
  | i :: is, c =>
    b.MatchedMarkers key s s' refusals i i.markers c ∧
      ∀ x, ((b.withText key s).resolve i c).result = .ok x →
        MatchedInputs is ((b.withText key s).resolve i c).taken

variable {b key s s' refusals}

/-- Two visits of discreet visitors are alike. -/
theorem alike_visit {d : Visitor} (hd : d.Discreet) {v : Visit} (hv : v.Textual) {c : Taken}
    (h : c.Takes (d.visit (v.withText key s) c).taken key →
      Matched refusals (d.visit (v.withText key s) c).result
        (d.visit (v.withText key s') c).result) :
    Alike refusals (d.visit (v.withText key s) c) (d.visit (v.withText key s') c)
      ((v.withText key s).disclosed key c (d.visit (v.withText key s) c))
      ((v.withText key s').disclosed key c (d.visit (v.withText key s') c)) := by
  have htaken := hd.taken v c key s s' hv
  rw [Visit.disclosed_withText, Visit.disclosed_withText, Visit.disclosed, Visit.disclosed,
    ← htaken]
  by_cases ht : c.Takes (d.visit (v.withText key s) c).taken key
  · have hmatched : Matched True _ _ := (h ht).mono fun _ => trivial
    by_cases hs : v.marker.sensitive? = some true
    · rw [if_neg fun h => h.2 hs, if_neg fun h => h.2 hs]
      refine ⟨htaken, h ht, ?_⟩
      rw [hd.sensitive v c key s s' hv hs hmatched]
      exact .same _
    · rw [if_pos ⟨ht, hs⟩, if_pos ⟨ht, hs⟩]
      exact ⟨htaken, h ht, .all (hd.length v c key s s' hv hmatched)⟩
  · obtain ⟨hresult, hlog⟩ := hd.untaken v c key s s' hv ht
    rw [if_neg fun h => ht h.1, if_neg fun h => ht h.1]
    refine ⟨htaken, hresult.mono False.elim, ?_⟩
    rw [hlog]
    exact .same _

/-- Markers are visited alike. -/
theorem alike_resolveFrom (hv : b.visitors.Discreet) (hs : b.sources.Textual) (i : Input)
    {ms : List Marker} {c : Taken} (h : b.MatchedMarkers key s s' refusals i ms c)
    (last last' : Option Value) :
    Alike refusals ((b.withText key s).resolveFrom i ms last c)
      ((b.withText key s').resolveFrom i ms last' c)
      ((b.withText key s).disclosedFrom key i ms c)
      ((b.withText key s').disclosedFrom key i ms c) := by
  induction ms generalizing c last last' with
  | nil => exact .ok last last' c
  | cons m ms ih =>
    rw [MatchedMarkers] at h
    cases hd : b.visitors.find? m.kind with
    | none =>
      rw [hd] at h
      have hnone : ∀ s, (b.withText key s).visitors.find? m.kind = none := fun _ => hd
      rw [resolveFrom_cons_of_none (hnone s), resolveFrom_cons_of_none (hnone s'), disclosedFrom,
        disclosedFrom, hnone s, hnone s']
      exact ih h last last'
    | some d =>
      rw [hd] at h
      obtain ⟨htakes, hrest⟩ := h
      have htextual : (b.occasion i m).Textual :=
        ⟨fun sources hsources => Option.some.inj hsources ▸ hs, rfl⟩
      have hsome : ∀ s, (b.withText key s).visitors.find? m.kind = some d := fun _ => hd
      rw [resolveFrom_cons_of_some (hsome s), resolveFrom_cons_of_some (hsome s'), disclosedFrom,
        disclosedFrom, hsome s, hsome s']
      exact (alike_visit (hv m.kind d hd) htextual htakes).bind fun x x' hx =>
        ih (hrest x hx) (some x) (some x')

/-- The values of an input are found alike. -/
theorem alike_resolve (hv : b.visitors.Discreet) (hs : b.sources.Textual) {i : Input} {c : Taken}
    (h : b.MatchedMarkers key s s' refusals i i.markers c) :
    Alike refusals ((b.withText key s).resolve i c) ((b.withText key s').resolve i c)
      ((b.withText key s).disclosedFrom key i i.markers c)
      ((b.withText key s').disclosedFrom key i i.markers c) :=
  alike_resolveFrom hv hs i h none none

/-- The fields of builders are set alike. -/
theorem alike_inject (hv : b.visitors.Discreet) (hs : b.sources.Textual) {is : List Input}
    {c : Taken} (h : b.MatchedInputs key s s' refusals is c) (fields fields' : Fields) :
    Alike refusals ((b.withText key s).inject is fields c)
      ((b.withText key s').inject is fields' c) ((b.withText key s).disclosed key is c)
      ((b.withText key s').disclosed key is c) := by
  induction is generalizing c fields fields' with
  | nil => exact .ok fields fields' c
  | cons i is ih =>
    obtain ⟨hmarkers, hrest⟩ := h
    rw [inject_cons, inject_cons]
    exact (alike_resolve hv hs hmarkers).bind fun x x' hx => ih (hrest x hx) _ _

/-- The values of parameters are found alike. -/
theorem alike_values (hv : b.visitors.Discreet) (hs : b.sources.Textual) {is : List Input}
    {c : Taken} (h : b.MatchedInputs key s s' refusals is c) :
    Alike refusals ((b.withText key s).values is c) ((b.withText key s').values is c)
      ((b.withText key s).disclosed key is c) ((b.withText key s').disclosed key is c) := by
  induction is generalizing c with
  | nil => exact .refl _
  | cons i is ih =>
    obtain ⟨hmarkers, hrest⟩ := h
    rw [values_cons, values_cons]
    exact (alike_resolve hv hs hmarkers).bind fun x x' hx =>
      (ih (hrest x hx)).bind_undisclosed fun xs xs' => .ok _ _ _

/-- The arguments of factories are found alike. -/
theorem alike_arguments (hv : b.visitors.Discreet) (hs : b.sources.Textual) {is : List Input}
    {c : Taken} (h : b.MatchedInputs key s s' refusals is c) :
    Alike refusals ((b.withText key s).arguments is c) ((b.withText key s').arguments is c)
      ((b.withText key s).disclosed key is c) ((b.withText key s').disclosed key is c) := by
  rw [arguments_eq, arguments_eq]
  exact (alike_values hv hs h).bind_undisclosed fun xs xs' => ⟨rfl, .ok xs xs', .same _⟩

end Corresponding
end Binder

end ConfigAssembly
