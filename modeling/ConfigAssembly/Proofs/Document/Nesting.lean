import Mathlib.Logic.Relation
import ConfigAssembly.Document.Elements

/-!
# Content in content

`Content.Everywhere` states a condition for content and all content in it, and `Content.Nested` that
a sequence somewhere is an item of a sequence. The reader goes from the content of an element to the
contents of the elements below, past the sequences between them: these are `Content.elements`, and
`Content.element_induction` goes the same way. What is stated about all content in content is met on
this way (`everywhere_of_elements`, `exists_element_of_nested`).
-/

namespace ConfigAssembly

open Relation

/-- The text of a scalar, however long. -/
def Value.word : Value → String
  | .bool b => if b then "true" else "false"
  | v => v.text

/-- The text of a key, unless it cannot be written. -/
theorem keyText_eq (v : Value) :
    keyText v = if v.isTooLong then .error .longInteger else .ok v.text := rfl

/-- The text of a scalar, unless it cannot be written. -/
theorem scalarText_eq (v : Value) :
    scalarText v = if v.isTooLong then .error .longInteger else .ok v.word := by
  cases v <;> rfl

/-- Only keys that cannot be written have no text. -/
theorem keyText_eq_error_iff {v : Value} {f : ShapeFault} :
    keyText v = .error f ↔ v.isTooLong = true ∧ f = .longInteger := by
  rw [keyText_eq]
  cases v.isTooLong <;> simp [eq_comm]

/-- A scalar that can be written has its word for a text. -/
theorem scalarText_eq_ok_iff {v : Value} {s : String} :
    scalarText v = .ok s ↔ v.isTooLong = false ∧ v.word = s := by
  rw [scalarText_eq]
  cases v.isTooLong <;> simp

/-- Only scalars that cannot be written have none. -/
theorem scalarText_eq_error_iff {v : Value} {f : ShapeFault} :
    scalarText v = .error f ↔ v.isTooLong = true ∧ f = .longInteger := by
  rw [scalarText_eq]
  cases v.isTooLong <;> simp [eq_comm]

/-- Null can be written. -/
@[simp] theorem Value.isTooLong_null : Value.null.isTooLong = false := rfl

/-- So can truth values. -/
@[simp] theorem Value.isTooLong_bool (b : Bool) : (Value.bool b).isTooLong = false := rfl

/-- So can texts. -/
@[simp] theorem Value.isTooLong_str (s : String) : (Value.str s).isTooLong = false := rfl

namespace Content

/-! ### Content in content -/

/-- Content holds the items of a sequence and the values of the entries of a mapping. -/
inductive Holds : Content → Content → Prop where
  | item {items : List Content} {c : Content} (h : c ∈ items) : Holds (.sequence items) c
  | entry {es : List (Value × Content)} {e : Value × Content} (h : e ∈ es) : Holds (.mapping es) e.2

/-- A condition is met by content and by all content in it. -/
def Everywhere (P : Content → Prop) (c : Content) : Prop := ∀ d, ReflTransGen Holds c d → P d

section Everywhere

variable {P : Content → Prop} {c d : Content}

/-- What holds everywhere holds at the top. -/
theorem Everywhere.self (h : c.Everywhere P) : P c := h c .refl

/-- It holds everywhere in what the content holds. -/
theorem Everywhere.of_holds (h : c.Everywhere P) (hd : c.Holds d) : d.Everywhere P :=
  fun e he => h e (.head hd he)

/-- What holds at the top and everywhere in what the content holds. -/
theorem everywhere_iff : c.Everywhere P ↔ P c ∧ ∀ d, c.Holds d → d.Everywhere P := by
  refine ⟨fun h => ⟨h.self, fun d => h.of_holds⟩, fun ⟨hself, hbelow⟩ e he => ?_⟩
  rcases ReflTransGen.cases_head he with rfl | ⟨d, hd, he⟩
  · exact hself
  · exact hbelow d hd e he

/-- A scalar holds nothing. -/
theorem everywhere_scalar {v : Value} : (scalar v).Everywhere P ↔ P (.scalar v) := by
  rw [everywhere_iff, and_iff_left]
  exact nofun

/-- A sequence holds its items. -/
theorem everywhere_sequence {items : List Content} :
    (sequence items).Everywhere P ↔ P (.sequence items) ∧ ∀ c ∈ items, c.Everywhere P := by
  rw [everywhere_iff]
  refine and_congr_right fun _ => ⟨fun h c hc => h c (.item hc), ?_⟩
  rintro h _ (hc | _)
  exact h _ hc

/-- A mapping holds the values of its entries. -/
theorem everywhere_mapping {es : List (Value × Content)} :
    (mapping es).Everywhere P ↔ P (.mapping es) ∧ ∀ e ∈ es, e.2.Everywhere P := by
  rw [everywhere_iff]
  refine and_congr_right fun _ => ⟨fun h e he => h e.2 (.entry he), ?_⟩
  rintro h _ (_ | he)
  exact h _ he

end Everywhere

/-- Whether content is a sequence. -/
def isSequence : Content → Bool
  | .sequence _ | .againSequence => true
  | _ => false

/-- Whether content is the mark of a collection that holds itself. -/
def isAgain : Content → Bool
  | .againSequence | .againMapping => true
  | _ => false

/-- The keys of a mapping differ as texts. -/
def KeysDiffer : Content → Prop
  | .mapping es => (es.map fun e => e.1.text).Nodup
  | _ => True

/-- A scalar, or the keys of a mapping, can be written. -/
def Short : Content → Prop
  | .scalar v => v.isTooLong = false
  | .mapping es => ∀ e ∈ es, e.1.isTooLong = false
  | _ => True

/-- No collection in the content holds itself. -/
def Finite (c : Content) : Prop := c.Everywhere fun d => d.isAgain = false

/-- The keys of each mapping differ as texts. -/
def Distinct (c : Content) : Prop := c.Everywhere KeysDiffer

/-- All scalars and keys can be written. -/
def Writable (c : Content) : Prop := c.Everywhere Short

/-- The content is a sequence, or a sequence somewhere in it is an item of a sequence. -/
def Nested (c : Content) : Prop :=
  c.isSequence = true ∨
    ∃ items item, ReflTransGen Holds c (.sequence items) ∧ item ∈ items ∧ item.isSequence = true

/-! ### The elements of a mapping -/

/-- The attribute that an entry is, if its value is a scalar. -/
def entryAttributes : Value × Content → List (String × String)
  | (_, .scalar .null) => []
  | (k, .scalar v) => [(k.text, v.word)]
  | _ => []

/-- The elements that an entry is, each with its name: one for a mapping or for nothing, one for
each item of a sequence. -/
def entryElements : Value × Content → List (String × Content)
  | (k, .scalar .null) => [(k.text, .scalar .null)]
  | (k, .mapping es) => [(k.text, .mapping es)]
  | (k, .sequence items) => items.map fun c => (k.text, c)
  | _ => []

/-- An entry with a scalar is an attribute. -/
theorem entryAttributes_scalar (k : Value) {v : Value} (hv : v ≠ .null) :
    entryAttributes (k, .scalar v) = [(k.text, v.word)] := by
  cases v <;> first | rfl | exact absurd rfl hv

/-- It is no element. -/
theorem entryElements_scalar (k : Value) {v : Value} (hv : v ≠ .null) :
    entryElements (k, .scalar v) = [] := by
  cases v <;> first | rfl | exact absurd rfl hv

/-- The elements below the element of content. -/
def elements : Content → List (String × Content)
  | .mapping es => es.flatMap entryElements
  | _ => []

section Element

variable {es : List (Value × Content)} {e : Value × Content} {d : String × Content} {c : Content}

/-- An element below is the value of an entry, or an item of one that is a sequence. -/
theorem eq_or_mem_of_mem_entryElements (h : d ∈ entryElements e) :
    d.2 = e.2 ∧ d.2.isSequence = false ∨ ∃ items, e.2 = .sequence items ∧ d.2 ∈ items := by
  unfold entryElements at h
  split at h
  · obtain rfl := List.mem_singleton.1 h
    exact .inl ⟨rfl, rfl⟩
  · obtain rfl := List.mem_singleton.1 h
    exact .inl ⟨rfl, rfl⟩
  · obtain ⟨c, hc, rfl⟩ := List.mem_map.1 h
    exact .inr ⟨_, rfl, hc⟩
  · cases h

/-- What holds everywhere in content holds everywhere in its elements. -/
theorem Everywhere.element {P : Content → Prop} (h : c.Everywhere P) (hd : d ∈ c.elements) :
    d.2.Everywhere P := by
  cases c with
  | mapping es =>
    obtain ⟨e, he, hde⟩ := List.mem_flatMap.1 hd
    have hentry := h.of_holds (.entry he)
    rcases eq_or_mem_of_mem_entryElements hde with ⟨heq, _⟩ | ⟨items, heq, hmem⟩
    · rwa [heq]
    · rw [heq] at hentry
      exact hentry.of_holds (.item hmem)
  | _ => cases hd

/-- The elements of content are smaller than the content. -/
theorem sizeOf_lt_of_mem_elements (h : d ∈ c.elements) : sizeOf d.2 < sizeOf c := by
  cases c with
  | mapping es =>
    obtain ⟨e, he, hde⟩ := List.mem_flatMap.1 h
    have hentry := List.sizeOf_lt_of_mem he
    have hvalue : sizeOf e = 1 + sizeOf e.1 + sizeOf e.2 := rfl
    rcases eq_or_mem_of_mem_entryElements hde with ⟨heq, _⟩ | ⟨items, heq, hmem⟩
    · rw [heq, mapping.sizeOf_spec]
      omega
    · have hitem := List.sizeOf_lt_of_mem hmem
      rw [heq, sequence.sizeOf_spec] at hvalue
      rw [mapping.sizeOf_spec]
      omega
  | _ => cases h

/-- The integers of an entry of content that can be written are short. -/
theorem Writable.entry (h : (mapping es).Writable) (he : e ∈ es) :
    e.1.isTooLong = false ∧ ∀ v, e.2 = .scalar v → v.isTooLong = false := by
  refine ⟨h.self e he, fun v hv => ?_⟩
  have hshort : e.2.Short := (h.of_holds (.entry he)).self
  rwa [hv] at hshort

/-- An entry that can be written and is no collection that holds itself. -/
structure Legible (e : Value × Content) : Prop where
  key : e.1.isTooLong = false
  scalar : ∀ v, e.2 = .scalar v → v.isTooLong = false
  once : e.2.isAgain = false

/-- A condition is met everywhere in a mapping if it is met by the mapping, by its scalars, by
sequences and by the elements below. -/
theorem everywhere_of_elements {P : Content → Prop} (hself : P (.mapping es))
    (hscalar : ∀ e ∈ es, ∀ v, e.2 = .scalar v → P (.scalar v))
    (hsequence : ∀ items, P (.sequence items))
    (hlegible : ∀ e ∈ es, Legible e) (hbelow : ∀ d ∈ (mapping es).elements, d.2.Everywhere P) :
    (mapping es).Everywhere P := by
  refine everywhere_mapping.2 ⟨hself, ?_⟩
  rintro ⟨k, c⟩ he
  have helement : ∀ d ∈ entryElements (k, c), d.2.Everywhere P :=
    fun d hd => hbelow d (List.mem_flatMap.2 ⟨_, he, hd⟩)
  cases c with
  | scalar v => exact everywhere_scalar.2 (hscalar _ he v rfl)
  | mapping inner => exact helement (k.text, .mapping inner) List.mem_cons_self
  | sequence items =>
    exact everywhere_sequence.2
      ⟨hsequence items, fun c hc => helement _ (List.mem_map_of_mem hc)⟩
  | againSequence => cases (hlegible _ he).once
  | againMapping => cases (hlegible _ he).once

/-- Induction from the elements below an element to the element. -/
theorem element_induction {P : Content → Prop} (step : ∀ c, (∀ d ∈ c.elements, P d.2) → P c)
    (c : Content) : P c :=
  step c fun d _ => element_induction step d.2
termination_by sizeOf c
decreasing_by exact sizeOf_lt_of_mem_elements ‹_›

/-! ### Sequences in sequences -/

/-- A sequence in a sequence is one from outside too. -/
theorem Nested.of_holds {c d : Content} (h : c.Holds d) (hd : d.Nested)
    (hitem : d.isSequence = true → c.Nested) : c.Nested := by
  rcases hd with hd | ⟨items, item, hpath, hmem, hseq⟩
  · exact hitem hd
  · exact .inr ⟨items, item, .head h hpath, hmem, hseq⟩

/-- A sequence in a sequence below an element is one in the content of the element. -/
theorem Nested.of_element (hd : d ∈ c.elements) (h : d.2.Nested) : c.Nested := by
  cases c with
  | mapping es =>
    obtain ⟨e, he, hde⟩ := List.mem_flatMap.1 hd
    rcases eq_or_mem_of_mem_entryElements hde with ⟨heq, hseq⟩ | ⟨items, heq, hmem⟩
    · rw [heq] at h hseq
      exact h.of_holds (.entry he) fun hseq' => absurd hseq' (by rw [hseq]; decide)
    · have hpath : ReflTransGen Holds (mapping es) (sequence items) := by
        rw [← heq]
        exact .single (.entry he)
      rcases h with h | ⟨items', item, hpath', hmem', hseq'⟩
      · exact .inr ⟨items, d.2, hpath, hmem, h⟩
      · exact .inr ⟨items', item, hpath.trans (.head (.item hmem) hpath'), hmem', hseq'⟩
  | _ => cases hd

/-- A sequence in a sequence is met on the way from an element to those below it. -/
theorem exists_element_of_nested (h : c.Nested) :
    c.isSequence = true ∨ ∃ d ∈ c.elements, d.2.Nested := by
  rcases h with h | ⟨items, item, hpath, hmem, hseq⟩
  · exact .inl h
  · rcases ReflTransGen.cases_head hpath with rfl | ⟨c', hc', hpath⟩
    · exact .inl rfl
    · cases hc' with
      | item => exact .inl rfl
      | @entry es e he =>
        obtain ⟨k, value⟩ := e
        have helement : ∀ d ∈ entryElements (k, value), d ∈ (mapping es).elements :=
          fun d hd => List.mem_flatMap.2 ⟨_, he, hd⟩
        refine .inr ?_
        cases value with
        | scalar v => rcases ReflTransGen.cases_head hpath with h | ⟨_, h, _⟩ <;> cases h
        | againSequence => rcases ReflTransGen.cases_head hpath with h | ⟨_, h, _⟩ <;> cases h
        | againMapping => rcases ReflTransGen.cases_head hpath with h | ⟨_, h, _⟩ <;> cases h
        | mapping inner =>
          exact ⟨_, helement (k.text, .mapping inner) List.mem_cons_self,
            .inr ⟨items, item, hpath, hmem, hseq⟩⟩
        | sequence outer =>
          have hitem : ∀ c ∈ outer, (k.text, c) ∈ (mapping es).elements :=
            fun c hc => helement _ (List.mem_map_of_mem hc)
          rcases ReflTransGen.cases_head hpath with h | ⟨c, hc, hpath⟩
          · obtain rfl := sequence.inj h
            exact ⟨_, hitem item hmem, .inl hseq⟩
          · cases hc with
            | item hc => exact ⟨_, hitem c hc, .inr ⟨items, item, hpath, hmem, hseq⟩⟩

end Element

end Content
end ConfigAssembly
