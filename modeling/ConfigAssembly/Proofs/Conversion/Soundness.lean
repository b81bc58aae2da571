import Mathlib.Data.List.Forall2
import ConfigAssembly.Conversion

/-!
# What conversion delivers and what it refuses

`TypeExpr.Admits` says which values a type stands for when a text is converted to it, and
`TypeExpr.Refuses` which errors may come of it: an error names the text, or an item of it, and the
type that this was to be converted to. Types that no converter is for stand for the text itself and
refuse nothing.

A converter that keeps to a kind of values (`Converter.Keeps`) gives one of them or refuses the
text; it does not break down. The standard ones are such, items are converted one by one
(`Converters.each_cases`), and so a conversion to any type delivers one of its values or refuses the
text (`Converters.sound_convert`).

A union is made of the members of its members, each once. It stands for what its only alternative
to `null` stands for, or else for the text (`TypeExpr.admits_ofUnion`).
-/

namespace ConfigAssembly

open ConfigAssembly.Text

namespace TypeExpr

/-- The values that a type stands for when a text is converted to it. -/
def Admits : TypeExpr → String → Value → Prop
  | .basic b, s, v => match b with
    | .int => ∃ i, v = .int i
    | .float => ∃ x, v = .float x
    | .bool => ∃ b, v = .bool b
    | .path => ∃ p, v = .path p
    | .array => ∃ xs, v = .array xs
    | .list => ∃ xs, v = .list xs ∧ List.Forall₂ (fun item x => x = .str item) (commaItems s) xs
    | .tuple | .emptyTuple =>
      ∃ xs, v = .tuple xs ∧ List.Forall₂ (fun item x => x = .str item) (commaItems s) xs
    | .str | .any | .null | .object | .dict | .bytes | .complex => v = .str s
  | .listOf t, s, v => ∃ xs, v = .list xs ∧ List.Forall₂ (Admits t) (commaItems s) xs
  | .tupleAll t, s, v => ∃ xs, v = .tuple xs ∧ List.Forall₂ (Admits t) (commaItems s) xs
  | .tupleOf t _, s, v => ∃ xs, v = .tuple xs ∧ List.Forall₂ (Admits t) (commaItems s) xs
  | .optional t _, s, v => Admits t s v
  | .enum e, _, v => ∃ m ∈ e.canonical, v = .member e.name m.1 m.2
  | .union _, s, v | .dictOf _ _, s, v | .instanceOf _, s, v => v = .str s

/-- The errors that may come of converting a text to a type. -/
def Refuses : TypeExpr → String → ConversionError → Prop
  | .basic b, s, e => match b with
    | .int | .float | .bool | .array => e.value = s ∧ e.target = .basic b
    | _ => False
  | .listOf t, s, e | .tupleAll t, s, e | .tupleOf t _, s, e =>
    ∃ item ∈ commaItems s, Refuses t item e
  | .optional t _, s, e => Refuses t s e
  | .enum d, s, e => e.value = s ∧ e.target = .enum d
  | .union _, _, _ | .dictOf _ _, _, _ | .instanceOf _, _, _ => False

/-! ### Unions -/

/-- Whether a type is that of the null value. -/
def isNull : TypeExpr → Bool
  | .basic .null => true
  | _ => false

/-- The null type is recognised. -/
@[simp] theorem isNull_null : isNull (.basic .null) = true := rfl

/-- No other type is. -/
theorem isNull_iff {t : TypeExpr} : t.isNull = true ↔ t = .basic .null := by
  constructor
  · intro h
    unfold isNull at h
    split at h
    · rfl
    · contradiction
  · rintro rfl
    rfl

/-- The members of the members of a union, each once. -/
def distinctMembers (ts : List TypeExpr) : List TypeExpr :=
  (ts.flatMap members).foldl (fun us t => if us.any (same t) then us else us ++ [t]) []

/-- What a union has beside `null`. -/
def alternatives (ts : List TypeExpr) : List TypeExpr :=
  (distinctMembers ts).filter fun t => !t.isNull

/-- `null` is taken up once at most, since a type that is there is not taken up again. -/
theorem countP_isNull_foldl_le {us : List TypeExpr} (h : us.countP isNull ≤ 1)
    (ts : List TypeExpr) :
    (ts.foldl (fun us t => if us.any (same t) then us else us ++ [t]) us).countP isNull ≤ 1 := by
  induction ts generalizing us with
  | nil => exact h
  | cons t ts ih =>
    rw [List.foldl_cons]
    apply ih
    split
    · exact h
    · next hnew =>
      rw [List.countP_append, List.countP_singleton]
      by_cases ht : t.isNull = true
      · have hnone : us.countP isNull = 0 := by
          rw [List.countP_eq_zero]
          intro u hu hnull
          apply hnew
          obtain rfl := isNull_iff.1 ht
          obtain rfl := isNull_iff.1 hnull
          exact List.any_eq_true.2 ⟨.basic .null, hu, rfl⟩
        exact Nat.le_of_eq (by rw [hnone, if_pos ht])
      · rw [if_neg ht]
        exact h

/-- At most one member of a union is no alternative. -/
theorem length_distinctMembers_le (ts : List TypeExpr) :
    (distinctMembers ts).length ≤ (alternatives ts).length + 1 := by
  have hstart : List.countP isNull [] ≤ 1 := Nat.zero_le 1
  have hnull : (distinctMembers ts).countP isNull ≤ 1 :=
    countP_isNull_foldl_le hstart (ts.flatMap members)
  have hsum := List.length_eq_length_filter_add (l := distinctMembers ts) isNull
  rw [List.countP_eq_length_filter] at hnull
  unfold alternatives
  omega

/-- A union stands for what its only alternative to `null` stands for, or else for the text. -/
theorem admits_ofUnion (ts : List TypeExpr) (s : String) (v : Value) :
    (ofUnion ts).Admits s v ↔ match alternatives ts with
      | [t] => t.Admits s v
      | _ => v = .str s := by
  have hle := length_distinctMembers_le ts
  have hmembers : distinctMembers ts =
    (ts.flatMap members).foldl (fun us t => if us.any (same t) then us else us ++ [t]) [] := rfl
  unfold ofUnion
  dsimp only
  rw [← hmembers]
  unfold alternatives at hle ⊢
  split
  · next t h =>
    cases ht : t.isNull
    · simp [h, ht]
    · simp [h, isNull_iff.1 ht, Admits]
  · next t h =>
    cases ht : t.isNull
    · simp [h, ht, Admits]
    · simp [h, isNull_iff.1 ht] at hle
  · next t _ h =>
    cases ht : t.isNull
    · simp [h, ht, Admits]
    · simp [h, isNull_iff.1 ht] at hle
  · next hone hlast hfirst =>
    split
    · -- With a single alternative the members would be as in one of the cases before.
      next u hu =>
      exfalso
      rw [hu] at hle
      rcases hts : distinctMembers ts with _ | ⟨t, _ | ⟨w, _ | _⟩⟩
      · simp [hts] at hu
      · exact hone t hts
      · cases ht : t.isNull
        · cases hw : w.isNull
          · simp [hts, ht, hw] at hu
          · exact hlast t (isNull_iff.1 hw ▸ hts)
        · exact hfirst w (isNull_iff.1 ht ▸ hts)
      · simp [hts] at hle
    · rfl

end TypeExpr

/-! ### Converters -/

/-- A converter gives values of a kind or refuses the text, and does not break down. -/
def Converter.Keeps (f : Converter) (P : Value → Prop) : Prop :=
  ∀ s, (∃ v, f s = .ok v ∧ P v) ∨ ∃ reason, f s = .error (.refused reason)

namespace Converter

/-- Truth values are read. -/
theorem keeps_boolean : boolean.Keeps fun v => ∃ b, v = .bool b := by
  intro s
  unfold boolean
  dsimp only
  split
  · exact .inl ⟨_, rfl, true, rfl⟩
  · split
    · exact .inl ⟨_, rfl, false, rfl⟩
    · exact .inr ⟨_, rfl⟩

/-- What is no integer numeral is read as a floating-point number, which may be none, or not
integral; each time the text is refused. -/
theorem keeps_integer : integer.Keeps fun v => ∃ i, v = .int i := by
  intro s
  unfold integer
  cases Numeral.readInteger 0 s with
  | ok i => exact .inl ⟨_, rfl, i, rfl⟩
  | error fault =>
    cases Numeral.readFloat? s with
    | none => exact .inr ⟨_, rfl⟩
    | some x =>
      cases hx : x.toInt? with
      | none => exact .inr ⟨integerReason s fault, by simp only [hx]⟩
      | some i => exact .inl ⟨.int i, by simp only [hx], i, rfl⟩

/-- Floating-point numbers are read. -/
theorem keeps_float : float.Keeps fun v => ∃ x, v = .float x := by
  intro s
  unfold float
  cases Numeral.readFloat? s with
  | none => exact .inr ⟨_, rfl⟩
  | some x => exact .inl ⟨_, rfl, x, rfl⟩

/-- Several numbers are read, or the first text that is none is refused. -/
theorem readAll_cases (ss : List String) :
    (∃ xs, readAll ss = .ok xs) ∨ ∃ reason, readAll ss = .error (.refused reason) := by
  induction ss with
  | nil => exact .inl ⟨[], rfl⟩
  | cons s ss ih =>
    rw [readAll]
    cases Numeral.readFloat? s with
    | none => exact .inr ⟨_, rfl⟩
    | some x =>
      rcases ih with ⟨xs, hxs⟩ | ⟨reason, hreason⟩
      · exact .inl ⟨x :: xs, by rw [hxs]; rfl⟩
      · exact .inr ⟨reason, by rw [hreason]; rfl⟩

/-- Arrays are read. -/
theorem keeps_array : array.Keeps fun v => ∃ xs, v = .array xs := by
  intro s
  unfold array
  rcases readAll_cases (listItems s) with ⟨xs, hxs⟩ | ⟨reason, hreason⟩
  · exact .inl ⟨.array xs, by rw [hxs]; rfl, xs, rfl⟩
  · exact .inr ⟨reason, by rw [hreason]; rfl⟩

/-- Paths are read. -/
theorem keeps_path : path.Keeps fun v => ∃ p, v = .path p :=
  fun s => .inl ⟨_, rfl, normalisedPath s, rfl⟩

end Converter

namespace Converters

/-! ### Conversions -/

/-- A conversion delivers a value of a type or refuses the text. -/
def Sound (t : TypeExpr) (s : String) (r : Except ConversionFailure Value) : Prop :=
  (∃ v, r = .ok v ∧ t.Admits s v) ∨ ∃ e, r = .error (.conversion e) ∧ t.Refuses s e

section Plain

variable {cs : Converters} {t : TypeExpr} {s : String}

/-- A type without a converter leaves the text as it is. -/
theorem sound_convertPlain_of_none (hget : cs.get? t = none) (hadmits : t.Admits s (.str s)) :
    Sound t s (cs.convertPlain t s) := by
  left
  exact ⟨.str s, by rw [convertPlain, hget], hadmits⟩

/-- A type with a converter that does not break down gets what the converter gives. -/
theorem sound_convertPlain {f : Converter} {P : Value → Prop} (hget : cs.get? t = some f)
    (hf : f.Keeps P) (hadmits : ∀ v, P v → t.Admits s v)
    (hrefuses : ∀ reason, f s = .error (.refused reason) → t.Refuses s ⟨s, t, reason⟩) :
    Sound t s (cs.convertPlain t s) := by
  unfold convertPlain
  rw [hget]
  rcases hf s with ⟨v, hv, hP⟩ | ⟨reason, hreason⟩
  · left
    exact ⟨v, by simp only [hv], hadmits v hP⟩
  · right
    exact ⟨⟨s, t, reason⟩, by simp only [hreason], hrefuses reason hreason⟩

end Plain

/-- Items are converted one by one: each to a value of the type, or the first that is refused is the
error. -/
theorem each_cases {t : TypeExpr} {f : String → Except ConversionFailure Value}
    (hf : ∀ s, Sound t s (f s)) (items : List String) :
    (∃ xs, each f items = .ok xs ∧ List.Forall₂ t.Admits items xs) ∨
      ∃ e, each f items = .error (.conversion e) ∧ ∃ item ∈ items, t.Refuses item e := by
  induction items with
  | nil => exact .inl ⟨[], rfl, .nil⟩
  | cons s ss ih =>
    rw [each]
    rcases hf s with ⟨v, hv, hadmits⟩ | ⟨e, he, hrefuses⟩
    · rw [hv]
      rcases ih with ⟨xs, hxs, hall⟩ | ⟨e, he, item, hitem, hrefuses⟩
      · exact .inl ⟨v :: xs, by simp only [hxs]; rfl, .cons hadmits hall⟩
      · exact .inr ⟨e, by simp only [he]; rfl, item, List.mem_cons_of_mem s hitem, hrefuses⟩
    · exact .inr ⟨e, by rw [he], s, List.mem_cons_self, hrefuses⟩

/-- A collection is made of the items that were converted. -/
theorem sound_each {t u : TypeExpr} {s : String} {make : List Value → Value}
    {f : String → Except ConversionFailure Value} (hf : ∀ s, Sound t s (f s))
    (hadmits : ∀ xs, List.Forall₂ t.Admits (commaItems s) xs → u.Admits s (make xs))
    (hrefuses : ∀ e, (∃ item ∈ commaItems s, t.Refuses item e) → u.Refuses s e) :
    Sound u s ((each f (commaItems s)).map make) := by
  rcases each_cases hf (commaItems s) with ⟨xs, hxs, hall⟩ | ⟨e, he, hitem⟩
  · exact .inl ⟨make xs, by rw [hxs]; rfl, hadmits xs hall⟩
  · exact .inr ⟨e, by rw [he]; rfl, hrefuses e hitem⟩

/-- The items of a text are themselves the values of a bare collection. -/
theorem forall₂_str (items : List String) :
    List.Forall₂ (fun item x => x = Value.str item) items (items.map .str) := by
  rw [List.forall₂_map_right_iff]
  exact List.forall₂_same.2 fun _ _ => rfl

/-- Members of an enumeration are found as they should be. -/
theorem sound_convertMember (e : EnumType) (s : String) :
    Sound (.enum e) s (convertMember e s) := by
  unfold convertMember
  cases h : e.canonical.find? fun m => lower m.1 == lower (trim s) with
  | none => exact .inr ⟨_, rfl, rfl, rfl⟩
  | some m => exact .inl ⟨_, rfl, m, List.mem_of_find?_eq_some h, rfl⟩

/-- Basic types are the same if they are the same by themselves. -/
theorem basic_beq_basic (a b : BasicType) : (TypeExpr.basic a == .basic b) = (a == b) := by
  change TypeExpr.same (.basic a) (.basic b) = _
  simp only [TypeExpr.same]

/-- Only basic types have converters of their own. -/
theorem standard_get?_of_not_basic {t : TypeExpr} (h : ∀ b, TypeExpr.same (.basic b) t = false) :
    standard.get? t = none := by
  have hbeq : ∀ b, (TypeExpr.basic b == t) = false := h
  simp [standard, Assoc.get?, hbeq]

/-- The basic types with a converter of their own. -/
theorem standard_get?_basic (b : BasicType) : standard.get? (.basic b) = match b with
    | .str => some Converter.text
    | .int => some Converter.integer
    | .float => some Converter.float
    | .bool => some Converter.boolean
    | .path => some Converter.path
    | .array => some Converter.array
    | _ => none := by
  cases b <;> simp [standard, Assoc.get?, basic_beq_basic]

/-- A text that is read as an integer: the integer, or a failure. -/
theorem convert_int (s : String) : standard.convert (.basic .int) s =
    match Converter.integer s with
    | .ok v => .ok v
    | .error (.refused reason) => .error (.conversion ⟨s, .basic .int, reason⟩)
    | .error (.brokeDown fault) => .error (.fault fault) := by
  have hget : standard.get? (.basic .int) = some Converter.integer := standard_get?_basic .int
  rcases hs : Converter.integer s with (_ | _) | v <;>
    simp only [convert, convertPlain, hget, hs]

/-- Texts are converted to basic types as they should be. -/
theorem sound_convert_basic (b : BasicType) (s : String) :
    Sound (.basic b) s (standard.convert (.basic b) s) := by
  have hget := standard_get?_basic b
  unfold convert
  cases b with
  | str | any => exact .inl ⟨_, rfl, rfl⟩
  | list => exact .inl ⟨_, rfl, _, rfl, forall₂_str (commaItems s)⟩
  | tuple | emptyTuple => exact .inl ⟨_, rfl, _, rfl, forall₂_str (commaItems s)⟩
  | int =>
    exact sound_convertPlain hget Converter.keeps_integer (fun _ h => h) fun _ _ => ⟨rfl, rfl⟩
  | float =>
    exact sound_convertPlain hget Converter.keeps_float (fun _ h => h) fun _ _ => ⟨rfl, rfl⟩
  | bool =>
    exact sound_convertPlain hget Converter.keeps_boolean (fun _ h => h) fun _ _ => ⟨rfl, rfl⟩
  | array =>
    exact sound_convertPlain hget Converter.keeps_array (fun _ h => h) fun _ _ => ⟨rfl, rfl⟩
  | path => exact sound_convertPlain hget Converter.keeps_path (fun _ h => h) nofun
  | null | object | dict | bytes | complex => exact sound_convertPlain_of_none hget rfl

/-- A conversion to any type delivers one of its values or refuses the text. -/
theorem sound_convert : (t : TypeExpr) → (s : String) → Sound t s (standard.convert t s)
  | .basic b, s => sound_convert_basic b s
  | .listOf t, _ => sound_each (sound_convert t) (fun xs hxs => ⟨xs, rfl, hxs⟩) fun _ => id
  | .tupleAll t, _ => sound_each (sound_convert t) (fun xs hxs => ⟨xs, rfl, hxs⟩) fun _ => id
  | .tupleOf t _, _ => sound_each (sound_convert t) (fun xs hxs => ⟨xs, rfl, hxs⟩) fun _ => id
  | .optional t _, s => sound_convert t s
  | .union _, s => .inl ⟨.str s, rfl, rfl⟩
  | .enum e, s => sound_convertMember e s
  | .dictOf _ _, _ =>
    sound_convertPlain_of_none (standard_get?_of_not_basic fun _ => by simp [TypeExpr.same]) rfl
  | .instanceOf _, _ =>
    sound_convertPlain_of_none (standard_get?_of_not_basic fun _ => by simp [TypeExpr.same]) rfl

/-- The standard converters deliver a value of the type or refuse the text with a conversion error,
for every type and every text, and a union stands for what its only alternative to `null` stands
for, or else for the text. -/
theorem convert_sound :
    (∀ t s, (∃ v, standard.convert t s = .ok v ∧ t.Admits s v) ∨
      ∃ e, standard.convert t s = .error (.conversion e) ∧ t.Refuses s e) ∧
    ∀ ts s v, (TypeExpr.ofUnion ts).Admits s v ↔ match TypeExpr.alternatives ts with
      | [t] => t.Admits s v
      | _ => v = .str s :=
  ⟨sound_convert, TypeExpr.admits_ofUnion⟩

/-- The members of a union are not tried one after the other. -/
example : standard.convert (.ofUnion [.basic .int, .basic .null, .basic .float]) "1" =
    .ok (.str "1") := by
  rfl

end Converters
end ConfigAssembly
