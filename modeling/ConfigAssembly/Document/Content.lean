import ConfigAssembly.Value

/-!
# Contents of documents

What a document holds, before it is read as elements: scalars, sequences, and mappings whose entries
keep their order. A collection that holds itself is cut off where it comes again.
-/

namespace ConfigAssembly

/-- What a document holds. -/
inductive Content where
  | scalar (v : Value)
  | sequence (items : List Content)
  | mapping (entries : List (Value × Content))
  /-- A sequence that this place is a part of. -/
  | againSequence
  /-- A mapping that this place is a part of. -/
  | againMapping
  deriving Inhabited

namespace Content

mutual

/-- A value as content: lists are sequences and dictionaries mappings. -/
def ofValue : Value → Content
  | .list xs => .sequence (ofValues xs)
  | .dict es => .mapping (ofEntries es)
  | v => .scalar v

/-- Several values as contents. -/
def ofValues : List Value → List Content
  | [] => []
  | x :: xs => ofValue x :: ofValues xs

/-- The entries of a dictionary as those of a mapping. -/
def ofEntries : List (Value × Value) → List (Value × Content)
  | [] => []
  | (k, v) :: es => (k, ofValue v) :: ofEntries es

end

mutual

/-- Content as a value. -/
def value : Content → Value
  | .scalar v => v
  | .sequence items => .list (values items)
  | .mapping es => .dict (entryValues es)
  | .againSequence => .again .list
  | .againMapping => .again .dict

/-- Several contents as values. -/
def values : List Content → List Value
  | [] => []
  | c :: cs => value c :: values cs

/-- The entries of a mapping as those of a dictionary. -/
def entryValues : List (Value × Content) → List (Value × Value)
  | [] => []
  | (k, c) :: es => (k, value c) :: entryValues es

end

mutual

/-- A value as content holds the same as the value. -/
theorem value_ofValue (v : Value) : (ofValue v).value = v := by
  cases v with
  | list xs => simp [ofValue, value, values_ofValues xs]
  | dict es => simp [ofValue, value, entryValues_ofEntries es]
  | _ => simp [ofValue, value]

/-- So do the items of a list. -/
theorem values_ofValues (xs : List Value) : values (ofValues xs) = xs := by
  cases xs with
  | nil => rfl
  | cons x xs => simp [ofValues, values, value_ofValue x, values_ofValues xs]

/-- So do the entries of a dictionary. -/
theorem entryValues_ofEntries (es : List (Value × Value)) : entryValues (ofEntries es) = es := by
  match es with
  | [] => rfl
  | (k, v) :: es => simp [ofEntries, entryValues, value_ofValue v, entryValues_ofEntries es]

end

end Content
end ConfigAssembly
