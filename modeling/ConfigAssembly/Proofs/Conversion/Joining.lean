import ConfigAssembly.Proofs.Number.Decimal
import ConfigAssembly.Proofs.Conversion.Soundness

/-!
# Conversion of joined texts

Joined by a separator, two texts have the items of the one and then those of the other
(`Text.commaItems_append`, `Text.listItems_append`). As items are converted one by one up to the
first failure, the joined text is converted to the values of the one text and then those of the
other, or fails as the first of the two that fails (`Converters.joined_each`). So integers that are
written between commas, with blanks around them and with empty items among them, are read back
(`Converters.convert_written`, `Converters.convert_joined`).
-/

namespace ConfigAssembly

namespace Text

/-! ### Items of joined texts -/

/-- The items before and after a comma are split by themselves. -/
theorem commaItems_append (a b : String) :
    commaItems (a ++ "," ++ b) = commaItems a ++ commaItems b := by
  have hjoined : (a ++ "," ++ b).toList = a.toList ++ ',' :: b.toList := by simp
  rw [commaItems, hjoined, pieces_append_cons rfl, List.map_append, List.filterMap_append]
  rfl

/-- The items of texts with commas between them are those of the texts. -/
theorem commaItems_intercalate (ss : List String) :
    commaItems (",".intercalate ss) = ss.flatMap commaItems := by
  induction ss with
  | nil => rfl
  | cons s ss ih =>
    cases ss with
    | nil => simp
    | cons t ts =>
      rw [String.intercalate_cons_cons, commaItems_append, ih, List.flatMap_cons (x := s)]

/-- The items before and after a separator of numbers are split by themselves. -/
theorem listItems_append {c : Char} (hc : c = ',' ∨ isBlank c = true) (a b : String) :
    listItems (a ++ String.singleton c ++ b) = listItems a ++ listItems b := by
  have hseparates : (c == ',' || isBlank c) = true := by simpa using hc
  have hjoined : (a ++ String.singleton c ++ b).toList = a.toList ++ c :: b.toList := by simp
  rw [listItems, hjoined, pieces_append_cons hseparates, List.filterMap_append]
  rfl

end Text

open Text

/-! ### Values of joined texts -/

/-- What comes of two texts and of the text that they are joined to: a collection each, the last one
with the values of both, or else the failure of the first text that fails. -/
inductive Joined (make : List Value → Value) : Except ConversionFailure Value →
    Except ConversionFailure Value → Except ConversionFailure Value → Prop
  | both (xs ys : List Value) : Joined make (.ok (make xs)) (.ok (make ys)) (.ok (make (xs ++ ys)))
  | first (e : ConversionFailure) (r : Except ConversionFailure Value) :
    Joined make (.error e) r (.error e)
  | second (xs : List Value) (e : ConversionFailure) :
    Joined make (.ok (make xs)) (.error e) (.error e)

/-- What comes of two texts and of the text that they are joined to: an array each, the last one
with the numbers of both, or failures of the joined text and of one that it is joined of. -/
inductive JoinedArrays : Except ConversionFailure Value → Except ConversionFailure Value →
    Except ConversionFailure Value → Prop
  | both (xs ys : List Binary64) :
    JoinedArrays (.ok (.array xs)) (.ok (.array ys)) (.ok (.array (xs ++ ys)))
  | first (e e' : ConversionFailure) (r : Except ConversionFailure Value) :
    JoinedArrays (.error e) r (.error e')
  | second (xs : List Binary64) (e e' : ConversionFailure) :
    JoinedArrays (.ok (.array xs)) (.error e) (.error e')

namespace Converters

/-- The items are converted one after the other, until one fails. -/
theorem each_eq_mapM (f : String → Except ConversionFailure Value) (ss : List String) :
    each f ss = ss.mapM f := by
  induction ss with
  | nil => rfl
  | cons s ss ih =>
    rw [each, ih, List.mapM_cons]
    cases f s with
    | error e => rfl
    | ok x => rcases ss.mapM f with e | xs <;> rfl

/-- Items converted in two runs join to those converted in one. -/
theorem joined_each (make : List Value → Value) (f : String → Except ConversionFailure Value)
    (ss ts : List String) :
    Joined make ((each f ss).map make) ((each f ts).map make) ((each f (ss ++ ts)).map make) := by
  simp only [each_eq_mapM, List.mapM_append]
  cases ss.mapM f with
  | error e => exact .first e _
  | ok xs =>
    cases ts.mapM f with
    | error e => exact .second xs e
    | ok ys => exact .both xs ys

end Converters

/-- Reads an item as a number. -/
def Converter.number (s : String) : Except Refusal Binary64 :=
  match Numeral.readFloat? s with
  | none => .error (.refused (.notNumber s))
  | some x => .ok x

/-- The numbers of an array are read one after the other, until one fails. -/
theorem Converter.readAll_eq_mapM (ss : List String) : readAll ss = ss.mapM number := by
  induction ss with
  | nil => rfl
  | cons s ss ih =>
    rw [readAll, ih, List.mapM_cons, number]
    cases Numeral.readFloat? s with
    | none => rfl
    | some x => rcases ss.mapM number with e | xs <;> rfl

namespace Converters

/-- A text that is read as an array: the numbers, or a failure. -/
theorem convert_array (s : String) : standard.convert (.basic .array) s =
    match Converter.readAll (listItems s) with
    | .ok xs => .ok (.array xs)
    | .error (.refused reason) => .error (.conversion ⟨s, .basic .array, reason⟩)
    | .error (.brokeDown fault) => .error (.fault fault) := by
  have hget : standard.get? (.basic .array) = some Converter.array := standard_get?_basic .array
  unfold convert
  dsimp only
  rw [convertPlain, hget]
  dsimp only [Converter.array]
  rcases Converter.readAll (listItems s) with (_ | _) | xs <;> rfl

/-- Arrays join at a separator. -/
theorem joined_arrays {c : Char} (hc : c = ',' ∨ isBlank c = true) (a b : String) :
    JoinedArrays (standard.convert (.basic .array) a) (standard.convert (.basic .array) b)
      (standard.convert (.basic .array) (a ++ String.singleton c ++ b)) := by
  simp only [convert_array, listItems_append hc, Converter.readAll_eq_mapM, List.mapM_append]
  rcases (listItems a).mapM Converter.number with (_ | _) | xs
  · exact .first _ _ _
  · exact .first _ _ _
  · rcases (listItems b).mapM Converter.number with (_ | _) | ys
    · exact .second _ _ _
    · exact .second _ _ _
    · exact .both xs ys

end Converters

/-! ### Written integers -/

/-- An item of a text with commas: an integer with blanks around it, or blanks alone. -/
structure WrittenItem where
  before : List Char
  item : Option Int
  after : List Char
  blank_before : ∀ c ∈ before, isBlank c = true
  blank_after : ∀ c ∈ after, isBlank c = true
  /-- The integer has not too many digits. -/
  short : ∀ i ∈ item, (Nat.toDigits 10 i.natAbs).length ≤ Numeral.longestDecimal

namespace WrittenItem

/-- The text of an item. -/
def text (e : WrittenItem) : String :=
  String.ofList (e.before ++ (e.item.elim "" toString).toList ++ e.after)

/-- The text of an integer has neither blanks nor commas. -/
theorem plain_toString {i : Int} {c : Char} (hc : c ∈ (toString i).toList) :
    isBlank c = false ∧ c ≠ ',' := by
  rw [Numeral.toList_toString, List.mem_append] at hc
  rcases hc with hc | hc
  · obtain rfl : c = '-' := by
      split at hc
      · exact List.mem_singleton.1 hc
      · contradiction
    decide
  · have hdigit := Numeral.isDigit_of_mem_toDigits hc
    have hbounds := Numeral.toNat_of_isDigit hdigit
    have hcovers : ∀ n < 58, 48 ≤ n → blankBoundaries.covers n = false := by decide
    exact ⟨hcovers _ (by omega) hbounds.1, Numeral.ne_of_isDigit hdigit rfl⟩

/-- Without blanks, a text with commas has one item for an integer, and none for blanks alone. -/
theorem commaItems_text (e : WrittenItem) : commaItems e.text = e.item.toList.map toString := by
  have hcore : ∀ c ∈ (e.item.elim "" toString).toList, isBlank c = false ∧ c ≠ ',' := by
    intro c hc
    cases hi : e.item with
    | none => simp [hi] at hc
    | some i =>
      rw [hi] at hc
      exact plain_toString hc
  have hblank : ∀ c, isBlank c = true → c ≠ ',' := by
    rintro _ hc rfl
    contradiction
  have hpiece : pieces (· == ',') e.text.toList = [e.text.toList] := by
    refine pieces_of_forall fun c hc => ?_
    rw [beq_eq_false_iff_ne]
    simp only [text, String.toList_ofList, List.mem_append] at hc
    rcases hc with (hc | hc) | hc
    · exact hblank c (e.blank_before c hc)
    · exact (hcore c hc).2
    · exact hblank c (e.blank_after c hc)
  have htrim : trimBy isBlank e.text.toList = (e.item.elim "" toString).toList := by
    rw [text, String.toList_ofList]
    exact (trimBy_append _ e.blank_before e.blank_after).trans
      (trimBy_of_forall fun c hc => (hcore c hc).1)
  rw [commaItems, hpiece, List.map_singleton, htrim]
  cases e.item with
  | none => rfl
  | some i =>
    have hne : (toString i).toList ≠ [] := by
      rw [Numeral.toList_toString]
      exact List.append_ne_nil_of_right_ne_nil _ Nat.toDigits_ne_nil
    rw [Option.elim_some, List.filterMap_cons, if_neg (by rwa [List.isEmpty_iff]),
      String.ofList_toList]
    rfl

end WrittenItem

namespace Converters

/-- An integer that is not too long is read back from its text. -/
theorem convert_toString {i : Int}
    (h : (Nat.toDigits 10 i.natAbs).length ≤ Numeral.longestDecimal) :
    standard.convert (.basic .int) (toString i) = .ok (.int i) := by
  rw [convert_int, Converter.integer, Numeral.readInteger_toString h]

/-- Items that are each converted to a value of their own. -/
theorem each_map {α : Type} {f : String → Except ConversionFailure Value} {shown : α → String}
    {value : α → Value} {as : List α} (h : ∀ a ∈ as, f (shown a) = .ok (value a)) :
    each f (as.map shown) = .ok (as.map value) := by
  induction as with
  | nil => rfl
  | cons a as ih =>
    obtain ⟨ha, has⟩ := List.forall_mem_cons.1 h
    rw [List.map_cons, each, ha]
    dsimp only
    rw [ih has]
    rfl

/-- Integers that are written between commas are read back. -/
theorem convert_written (es : List WrittenItem) :
    standard.convert (.listOf (.basic .int)) (",".intercalate (es.map WrittenItem.text)) =
      .ok (.list ((es.filterMap (·.item)).map .int)) := by
  have hitems : commaItems (",".intercalate (es.map WrittenItem.text)) =
      (es.filterMap (·.item)).map toString := by
    rw [commaItems_intercalate, List.flatMap_map, List.filterMap_eq_flatMap_toList,
      List.map_flatMap]
    exact List.flatMap_congr fun e _ => e.commaItems_text
  have hshort : ∀ i ∈ es.filterMap (·.item),
      standard.convert (.basic .int) (toString i) = .ok (.int i) := by
    intro i hi
    obtain ⟨e, _, hitem⟩ := List.mem_filterMap.1 hi
    exact convert_toString (e.short i hitem)
  rw [convert, hitems, each_map hshort]
  rfl

/-- Two texts that are joined by a comma are converted to the values of the one and then those of
the other, or fail as the first of the two that fails, whatever the type of the items; and the same
holds for arrays, with blanks as separators too, but for which failure it is. So a list of integers
is read back from their texts with commas between them, whatever blanks stand around them and
however many items are empty. -/
theorem convert_joined :
    (∀ (cs : Converters) (t : TypeExpr) (a b : String),
      Joined .list (cs.convert (.listOf t) a) (cs.convert (.listOf t) b)
          (cs.convert (.listOf t) (a ++ "," ++ b)) ∧
        Joined .tuple (cs.convert (.tupleAll t) a) (cs.convert (.tupleAll t) b)
          (cs.convert (.tupleAll t) (a ++ "," ++ b))) ∧
      (∀ (c : Char) (a b : String), c = ',' ∨ isBlank c = true →
        JoinedArrays (standard.convert (.basic .array) a) (standard.convert (.basic .array) b)
          (standard.convert (.basic .array) (a ++ String.singleton c ++ b))) ∧
      ∀ es : List WrittenItem,
        standard.convert (.listOf (.basic .int)) (",".intercalate (es.map WrittenItem.text)) =
          .ok (.list ((es.filterMap (·.item)).map .int)) := by
  refine ⟨fun cs t a b => ⟨?_, ?_⟩, fun c a b hc => joined_arrays hc a b, convert_written⟩
  · simp only [convert, commaItems_append]
    exact joined_each .list _ _ _
  · simp only [convert, commaItems_append]
    exact joined_each .tuple _ _ _

/-- Two integers with blanks around them, and an empty item. -/
private def spacedItems : List WrittenItem :=
  [⟨[' '], some 7, ['\t'], List.forall_mem_singleton.2 rfl, List.forall_mem_singleton.2 rfl,
      by decide⟩,
    ⟨[' '], none, [], List.forall_mem_singleton.2 rfl, List.forall_mem_nil _, nofun⟩,
    ⟨[], some (-12), [], List.forall_mem_nil _, List.forall_mem_nil _, by decide⟩]

/-- A tab separates the numbers of an array, and the integers are read back. -/
theorem convert_joined_tab :
    isBlank '\t' = true ∧
      (∃ xs ys, standard.convert (.basic .array) "1.5" = .ok (.array xs) ∧
        standard.convert (.basic .array) "2" = .ok (.array ys) ∧
        standard.convert (.basic .array) ("1.5" ++ String.singleton '\t' ++ "2") =
          .ok (.array (xs ++ ys))) ∧
      ",".intercalate (spacedItems.map WrittenItem.text) = " 7\t, ,-12" ∧
      standard.convert (.listOf (.basic .int)) " 7\t, ,-12" = .ok (.list [.int 7, .int (-12)]) := by
  have hblank : isBlank '\t' = true := by decide
  have hread : (standard.convert (.basic .array) "1.5").isOk = true ∧
      (standard.convert (.basic .array) "2").isOk = true := by
    decide +kernel
  have htext : ",".intercalate (spacedItems.map WrittenItem.text) = " 7\t, ,-12" := by
    decide +kernel
  obtain ⟨_, harrays, hwritten⟩ := convert_joined
  refine ⟨hblank, ?_, htext, htext ▸ hwritten spacedItems⟩
  have h := harrays '\t' "1.5" "2" (Or.inr hblank)
  revert h hread
  generalize standard.convert (.basic .array) "1.5" = r
  generalize standard.convert (.basic .array) "2" = r'
  generalize standard.convert (.basic .array) ("1.5" ++ String.singleton '\t' ++ "2") = whole
  rintro ⟨hr, hr'⟩ h
  cases h with
  | both xs ys => exact ⟨xs, ys, rfl, rfl, rfl⟩
  | first e e' r => contradiction
  | second xs e e' => contradiction

end Converters
end ConfigAssembly
