/-!
# Ordered maps

A map is a list of entries in the order in which their keys first came. Writing to a key that is
there keeps its place and its spelling and replaces the value.
-/

namespace ConfigAssembly

/-- A map as the list of its entries, in the order in which the keys came. -/
abbrev Assoc (α β : Type) := List (α × β)

namespace Assoc

variable {α β : Type} [BEq α]

/-- The value at a key. -/
def get? (m : Assoc α β) (k : α) : Option β := (m.find? (·.1 == k)).map (·.2)

/-- Whether a key is there. -/
def has (m : Assoc α β) (k : α) : Bool := m.any (·.1 == k)

/-- Writes a value at a key: in the place of the key if it is there, at the end otherwise. -/
def insert (k : α) (v : β) : Assoc α β → Assoc α β
  | [] => [(k, v)]
  | e :: es => if e.1 == k then (e.1, v) :: es else e :: insert k v es

/-- Writes entries one after the other. -/
def insertAll (m : Assoc α β) (es : List (α × β)) : Assoc α β :=
  es.foldl (fun m e => m.insert e.1 e.2) m

/-- The map that entries written one after the other give. -/
def ofList (es : List (α × β)) : Assoc α β := insertAll [] es

/-- The keys in their order. -/
def keys (m : Assoc α β) : List α := m.map (·.1)

/-- The values in the order of their keys. -/
def values (m : Assoc α β) : List β := m.map (·.2)

/-- Nothing is found in the empty map. -/
@[simp] theorem get?_nil (k : α) : get? ([] : Assoc α β) k = none := rfl

/-- What is found is an entry. -/
theorem mem_of_get? [LawfulBEq α] {m : Assoc α β} {k : α} {v : β} (h : m.get? k = some v) :
    (k, v) ∈ m := by
  obtain ⟨e, he, rfl⟩ := Option.map_eq_some_iff.1 h
  obtain rfl : e.1 = k := by simpa using List.find?_some he
  exact List.mem_of_find?_eq_some he

/-- A key with a value is among the keys. -/
theorem mem_keys_of_get? [LawfulBEq α] {m : Assoc α β} {k : α} {v : β} (h : m.get? k = some v) :
    k ∈ m.keys :=
  List.mem_map_of_mem (f := Prod.fst) (mem_of_get? h)

/-- The written value is read back. -/
theorem get?_insert_self [ReflBEq α] (m : Assoc α β) (k : α) (v : β) :
    (m.insert k v).get? k = some v := by
  induction m with
  | nil => simp [insert, get?]
  | cons e es ih =>
    unfold insert
    split <;> rename_i h
    · simp [get?, h]
    · simpa [get?, h] using ih

/-- Other keys keep their values. -/
theorem get?_insert_of_ne [LawfulBEq α] {k k' : α} (m : Assoc α β) (v : β) (h : k ≠ k') :
    (m.insert k v).get? k' = m.get? k' := by
  induction m with
  | nil => simp [insert, get?, h]
  | cons e es ih =>
    unfold insert
    split <;> rename_i he
    · obtain rfl : e.1 = k := by simpa using he
      simp [get?, h]
    · by_cases hk : e.1 == k'
      · simp [get?, hk]
      · simpa [get?, hk] using ih

/-- What is found at a key after a value was written. -/
theorem get?_insert [LawfulBEq α] (m : Assoc α β) (k : α) (v : β) (k' : α) :
    (m.insert k v).get? k' = if k == k' then some v else m.get? k' := by
  by_cases h : k = k'
  · subst h
    simp [get?_insert_self]
  · rw [get?_insert_of_ne m v h, if_neg (by simpa using h)]

/-- Only the written entry is new. -/
theorem eq_or_mem_of_mem_insert [LawfulBEq α] {m : Assoc α β} {k : α} {v : β} {e : α × β}
    (h : e ∈ m.insert k v) :
    e = (k, v) ∨ e ∈ m := by
  induction m with
  | nil => exact .inl (by simpa [insert] using h)
  | cons e' es ih =>
    unfold insert at h
    split at h <;> rename_i hk
    · obtain rfl : e'.1 = k := by simpa using hk
      exact (List.mem_cons.1 h).imp id (List.mem_cons_of_mem e')
    · rcases List.mem_cons.1 h with rfl | h
      · exact .inr List.mem_cons_self
      · exact (ih h).imp id (List.mem_cons_of_mem e')

/-- What is in a map after entries are written to it is one of them or was there before. -/
theorem mem_or_mem_of_mem_insertAll [LawfulBEq α] {m : Assoc α β} {es : List (α × β)} {e : α × β}
    (h : e ∈ m.insertAll es) : e ∈ es ∨ e ∈ m := by
  induction es generalizing m with
  | nil => exact .inr h
  | cons e' es ih =>
    rcases ih h with h | h
    · exact .inl (List.mem_cons_of_mem e' h)
    · rcases eq_or_mem_of_mem_insert h with rfl | h
      · exact .inl List.mem_cons_self
      · exact .inr h

/-- Of entries written one after the other the last one at a key is read back. -/
theorem get?_insertAll [LawfulBEq α] (m es : Assoc α β) (k : α) :
    (m.insertAll es).get? k = (get? es.reverse k).or (m.get? k) := by
  induction es generalizing m with
  | nil => rfl
  | cons e es ih =>
    have hlast : get? (e :: es).reverse k = (get? es.reverse k).or (get? [e] k) := by
      simp [get?, List.find?_append, Option.map_or]
    have hfirst : get? [e] k = if e.1 == k then some e.2 else none := by
      cases hk : e.1 == k <;> simp [get?, hk]
    calc (m.insertAll (e :: es)).get? k
      _ = (get? es.reverse k).or ((m.insert e.1 e.2).get? k) := ih _
      _ = (get? es.reverse k).or ((get? [e] k).or (m.get? k)) := by
        rw [get?_insert, hfirst]
        cases e.1 == k <;> simp
      _ = (get? (e :: es).reverse k).or (m.get? k) := by rw [hlast, Option.or_assoc]

/-- A key that is there stays in its place. -/
theorem keys_insert_of_mem_keys [LawfulBEq α] {m : Assoc α β} {k : α} (v : β) (h : k ∈ m.keys) :
    (m.insert k v).keys = m.keys := by
  induction m with
  | nil => cases h
  | cons e es ih =>
    unfold insert
    split <;> rename_i hk
    · rfl
    · have hne : k ≠ e.1 := fun he => hk (by simp [he])
      have hmem : k ∈ keys es := by simpa [keys, hne] using h
      exact congrArg (e.1 :: ·) (ih hmem)

/-- If no key is there twice, an entry is found at its key. -/
theorem get?_of_mem [LawfulBEq α] {m : Assoc α β} (hm : m.keys.Nodup) {k : α} {v : β}
    (h : (k, v) ∈ m) :
    m.get? k = some v := by
  induction m with
  | nil => cases h
  | cons e es ih =>
    obtain ⟨hnot, hes⟩ := List.nodup_cons.1 hm
    rcases List.mem_cons.1 h with rfl | h
    · simp [get?]
    · have hmem : k ∈ keys es := List.mem_map_of_mem h
      have hne : e.1 ≠ k := by
        rintro rfl
        exact hnot hmem
      simpa [get?, hne] using ih hes h

/-- A key is there if something is found for it. -/
theorem has_eq_isSome_get? (m : Assoc α β) (k : α) : m.has k = (m.get? k).isSome := by
  rw [has, get?, Option.isSome_map, ← List.isSome_find?]

/-- A new key comes last. -/
theorem insert_of_not_mem_keys [LawfulBEq α] {m : Assoc α β} {k : α} (v : β) (h : k ∉ m.keys) :
    m.insert k v = m ++ [(k, v)] := by
  induction m with
  | nil => rfl
  | cons e es ih =>
    obtain ⟨he, hes⟩ : k ≠ e.1 ∧ k ∉ keys es := by simpa [keys] using h
    rw [insert, if_neg (by simpa using Ne.symm he), ih hes, List.cons_append]

/-- No key comes twice when a value is written. -/
theorem nodup_keys_insert [LawfulBEq α] {m : Assoc α β} (hm : m.keys.Nodup) (k : α) (v : β) :
    (m.insert k v).keys.Nodup := by
  by_cases h : k ∈ m.keys
  · rw [keys_insert_of_mem_keys v h]
    exact hm
  · rw [insert_of_not_mem_keys v h, keys, List.map_append, List.nodup_append]
    refine ⟨hm, by simp, ?_⟩
    rintro k' hk' _ hk rfl
    obtain rfl : k' = k := List.mem_singleton.1 hk
    exact h hk'

/-- Writing entries with new keys, each its own, puts them at the end. -/
theorem insertAll_of_nodup [LawfulBEq α] {m : Assoc α β} {es : List (α × β)}
    (h : (m.keys ++ es.map (·.1)).Nodup) : m.insertAll es = m ++ es := by
  induction es generalizing m with
  | nil => simp [insertAll]
  | cons e es ih =>
    have hkey : e.1 ∉ m.keys := by
      intro hmem
      exact (List.nodup_append.1 h).2.2 e.1 hmem e.1 (by simp) rfl
    have hrest : (keys (m ++ [e]) ++ es.map (·.1)).Nodup := by
      simpa [keys] using h
    rw [insertAll, List.foldl_cons, insert_of_not_mem_keys e.2 hkey]
    change insertAll (m ++ [e]) es = _
    rw [ih hrest, List.append_assoc, List.singleton_append]

/-- Entries with different keys are their own map. -/
theorem ofList_of_nodup [LawfulBEq α] {es : List (α × β)} (h : (es.map (·.1)).Nodup) :
    ofList es = es :=
  insertAll_of_nodup h

end Assoc
end ConfigAssembly
