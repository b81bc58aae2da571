import ConfigAssembly.Yaml.Document

/-!
# What a document includes

A document includes a name if, with some answers for other inclusions, reading it stops with the
answer for this one (`Includes`). What is read depends on the answers for these names and on nothing
else (`readDocument_congr`); a document that cannot be read is faulty or has one of them refused
(`fault_or_includes_of_readDocument`), and one that can be read has none of them refused
(`included_eq_ok_of_readDocument`).

All three compare two readings of one document that go in step: `Tie` says how their answers and
errors may differ, and `Beside` is what every step of them keeps. Where the contents differ, the
same nodes are made nevertheless, except that a content may be no key.
-/

namespace ConfigAssembly.Yaml

variable {ε ε' : Type}

/-! ### Two readings of one document -/

/-- How two readings of one document may differ. -/
structure Tie (ε ε' : Type) where
  /-- Inclusions have the same contents in both. -/
  same : Prop
  /-- The errors that may end the left one whatever becomes of the right one. -/
  left : ε → Prop
  /-- The errors that may end the right one whatever becomes of the left one. -/
  right : ε' → Prop
  /-- The errors that may end both. -/
  both : ε → ε' → Prop

namespace Tie

variable (T : Tie ε ε') {α β γ δ : Type}

/-- Outcomes of the two readings that go together. -/
inductive Outcome (V : α → β → Prop) : Except ε α → Except ε' β → Prop
  | ok {a : α} {b : β} (h : V a b) : Outcome V (.ok a) (.ok b)
  | left {e : ε} {r : Except ε' β} (h : T.left e) : Outcome V (.error e) r
  | right {r : Except ε α} {e : ε'} (h : T.right e) : Outcome V r (.error e)
  | both {e : ε} {e' : ε'} (h : T.both e e') : Outcome V (.error e) (.error e')

/-- States of the two readings that go together: the same nodes were made, and of the same contents
if inclusions have the same. -/
structure Alike (w w' : Making) : Prop where
  graph : w.graph = w'.graph
  waiting : w.waiting = w'.waiting
  size : w.made.size = w'.made.size
  isMade : ∀ id : NodeId, w.made[id]?.join.isSome = w'.made[id]?.join.isSome
  same : T.same → w.made = w'.made

/-- Two things that are the same if inclusions have the same contents. -/
def Similar (a b : α) : Prop := T.same → a = b

/-- Steps of the two readings that go together: from states that do, they have outcomes that do. -/
def Beside (V : α → β → Prop) (m : Maker ε α) (m' : Maker ε' β) : Prop :=
  ∀ w w', T.Alike w w' →
    T.Outcome (fun x y => V x.1 y.1 ∧ T.Alike x.2 y.2) (m.run w) (m'.run w')

/-- What the two readings are told about what is around the document. -/
structure Joins (s : Surroundings ε) (s' : Surroundings ε') : Prop where
  included : ∀ name, T.Outcome T.Similar (s.included name) (s'.included name)
  fault : ∀ f, T.both (s.fault f) (s'.fault f)
  /-- Where contents differ, one of them may be no key. -/
  apart : ¬ T.same → ∀ f, T.left (s.fault f) ∧ T.right (s'.fault f)

section Steps

variable {T} {V : α → β → Prop} {W : γ → δ → Prop}

/-- Outcomes that correspond, gone on with in ways that correspond, correspond. -/
theorem Outcome.bind {r : Except ε α} {r' : Except ε' β} (h : T.Outcome V r r')
    {f : α → Except ε γ} {f' : β → Except ε' δ} (hf : ∀ a b, V a b → T.Outcome W (f a) (f' b)) :
    T.Outcome W (r >>= f) (r' >>= f') := by
  cases h with
  | ok h => exact hf _ _ h
  | left h => exact .left h
  | right h => exact .right h
  | both h => exact .both h

/-- So they do after functions that correspond. -/
theorem Outcome.map {r : Except ε α} {r' : Except ε' β} (h : T.Outcome V r r') {f : α → γ}
    {f' : β → δ} (hf : ∀ a b, V a b → W (f a) (f' b)) : T.Outcome W (r.map f) (r'.map f') := by
  cases h with
  | ok h => exact .ok (hf _ _ h)
  | left h => exact .left h
  | right h => exact .right h
  | both h => exact .both h

/-- Steps that do nothing correspond if their results do. -/
theorem beside_pure {a : α} {b : β} (h : V a b) : T.Beside V (pure a) (pure b) :=
  fun _ _ hw => .ok ⟨h, hw⟩

/-- Steps one after the other correspond. -/
theorem beside_bind {m : Maker ε α} {m' : Maker ε' β} {f : α → Maker ε γ} {f' : β → Maker ε' δ}
    (hm : T.Beside V m m') (hf : ∀ a b, V a b → T.Beside W (f a) (f' b)) :
    T.Beside W (m >>= f) (m' >>= f') := by
  intro w w' hw
  rw [StateT.run_bind, StateT.run_bind]
  exact (hm w w' hw).bind fun x y h => hf x.1 y.1 h.1 x.2 y.2 h.2

/-- So do steps with something made of their results. -/
theorem beside_map {m : Maker ε α} {m' : Maker ε' β} {f : α → γ} {f' : β → δ}
    (hm : T.Beside V m m') (hf : ∀ a b, V a b → W (f a) (f' b)) :
    T.Beside W (f <$> m) (f' <$> m') := by
  rw [map_eq_pure_bind, map_eq_pure_bind]
  exact beside_bind hm fun a b h => beside_pure (hf a b h)

/-- What has been made so far corresponds. -/
theorem beside_get : T.Beside T.Alike get get := fun _ _ hw => .ok ⟨hw, hw⟩

/-- It may be replaced by what corresponds. -/
theorem beside_set {w w' : Making} (h : T.Alike w w') :
    T.Beside (fun _ _ => True) (set w : Maker ε PUnit) (set w' : Maker ε' PUnit) :=
  fun _ _ _ => .ok ⟨trivial, h⟩

/-- It may be changed in ways that correspond. -/
theorem beside_modify {f f' : Making → Making} (h : ∀ w w', T.Alike w w' → T.Alike (f w) (f' w')) :
    T.Beside (fun _ _ => True) (modify f : Maker ε PUnit) (modify f' : Maker ε' PUnit) :=
  fun w w' hw => .ok ⟨trivial, h w w' hw⟩

/-- What is not asked for in the state has the outcomes of the two readings. -/
theorem beside_lift {r : Except ε α} {r' : Except ε' β} (h : T.Outcome V r r') :
    T.Beside V (StateT.lift r) (StateT.lift r') :=
  fun _ _ hw => h.bind fun _ _ h => .ok ⟨h, hw⟩

end Steps

/-! ### Making nodes in both readings -/

section Making

variable {T} {s : Surroundings ε} {s' : Surroundings ε'} {V : α → β → Prop}

/-- Noting objects that correspond keeps the correspondence. -/
theorem Alike.setMade {w w' : Making} (h : T.Alike w w') (id : NodeId) {m m' : Made}
    (hm : T.Similar m m') :
    T.Alike { w with made := w.made.setIfInBounds id (some m) }
      { w' with made := w'.made.setIfInBounds id (some m') } where
  graph := h.graph
  waiting := h.waiting
  size := by simp [h.size]
  isMade i := by
    rw [Array.getElem?_setIfInBounds, Array.getElem?_setIfInBounds, h.size]
    by_cases hi : id = i
    · by_cases hlt : i < w'.made.size <;> simp [hi, hlt]
    · simp [hi, h.isMade i]
  same hs := by rw [h.same hs, hm hs]

/-- Failures correspond. -/
theorem Joins.beside_fail (J : T.Joins s s') (f : Fault) :
    T.Beside V (Maker.fail s f) (Maker.fail s' f) := fun _ _ _ => .both (J.fault f)

/-- So do results that do not depend on what is included. -/
theorem Joins.beside_lift (J : T.Joins s s') (r : Except Fault α) :
    T.Beside Eq (Maker.lift s r) (Maker.lift s' r) := by
  cases r with
  | ok a => exact beside_pure rfl
  | error f => exact J.beside_fail f

/-- Noting objects that correspond. -/
theorem beside_note (id : NodeId) {m m' : Made} (hm : T.Similar m m') :
    T.Beside T.Similar (Maker.note id m : Maker ε Made) (Maker.note id m' : Maker ε' Made) := by
  unfold Maker.note
  refine beside_bind (beside_modify fun w w' hw => hw.setMade id hm) fun _ _ _ => ?_
  exact beside_pure hm

/-- Noting an empty collection. -/
theorem beside_noteEmpty (id : NodeId) (b : Body) :
    T.Beside T.Similar (Maker.noteEmpty id b : Maker ε Made) (Maker.noteEmpty id b) := by
  unfold Maker.noteEmpty
  refine beside_bind (beside_modify fun w w' hw => ?_) fun _ _ _ => beside_note id fun _ => rfl
  exact ⟨hw.graph, by rw [hw.waiting], hw.size, hw.isMade, hw.same⟩

/-- The text of a node is the same. -/
theorem Joins.beside_textOf (J : T.Joins s s') (id : NodeId) :
    T.Beside Eq (Maker.textOf s id) (Maker.textOf s' id) := by
  unfold Maker.textOf
  refine beside_bind beside_get fun w w' hw => ?_
  rw [hw.graph]
  exact J.beside_lift _

/-- A node that is made already is made in both readings. -/
theorem beside_unlessMade {w w' : Making} (hw : T.Alike w w') (id : NodeId) {m : Maker ε Made}
    {m' : Maker ε' Made} (h : T.Beside T.Similar m m') :
    T.Beside T.Similar
      (match w.made[id]? with
        | some (some made) => pure made
        | _ => m)
      (match w'.made[id]? with
        | some (some made) => pure made
        | _ => m') := by
  have hmade := hw.isMade id
  have hsame : T.same → w.made[id]? = w'.made[id]? := fun hs => by rw [hw.same hs]
  match w.made[id]?, w'.made[id]?, hmade, hsame with
  | some (some made), some (some made'), _, hsame =>
    refine beside_pure fun hs => ?_
    simpa using hsame hs
  | none, none, _, _ => exact h
  | none, some none, _, _ => exact h
  | some none, none, _, _ => exact h
  | some none, some none, _, _ => exact h

/-- The objects made of a node correspond, inclusions being answered alike. -/
theorem Joins.beside_make (J : T.Joins s s') (id : NodeId) :
    T.Beside T.Similar (Maker.make s id) (Maker.make s' id) := by
  have hscalar : ∀ t : Tag, T.Beside T.Similar
      (do
        let v ← Maker.lift s (t.scalarValue (← Maker.textOf s id))
        Maker.note id (.whole (.scalar v)))
      (do
        let v ← Maker.lift s' (t.scalarValue (← Maker.textOf s' id))
        Maker.note id (.whole (.scalar v))) := by
    intro t
    refine beside_bind (J.beside_textOf id) ?_
    rintro text _ rfl
    refine beside_bind (J.beside_lift _) ?_
    rintro v _ rfl
    exact beside_note id fun _ => rfl
  unfold Maker.make
  refine beside_bind beside_get fun w w' hw => beside_unlessMade hw id ?_
  refine beside_bind beside_get fun w w' hw => ?_
  rw [hw.graph]
  cases w'.graph.tag? id with
  | none => exact J.beside_fail _
  | some t =>
    cases t with
    | sequence | mapping | set | pairs => exact beside_noteEmpty id _
    | inclusion =>
      refine beside_bind (J.beside_textOf id) ?_
      rintro name _ rfl
      refine beside_bind (Tie.beside_lift (J.included name)) fun c c' hc => beside_note id ?_
      exact fun hs => congrArg Made.whole (hc hs)
    | _ => exact hscalar _

/-- Contents that are the same make the same key; others may make none in one of the readings. -/
theorem Joins.beside_key (J : T.Joins s s') {k k' : Option EntryKey} {f : EntryKey → Maker ε α}
    {f' : EntryKey → Maker ε' β} (hf : ∀ k k', T.Similar k k' → T.Beside V (f k) (f' k')) :
    T.Similar k k' → T.Beside V
      (match k with
        | none => Maker.fail s .malformed
        | some k => f k)
      (match k' with
        | none => Maker.fail s' .malformed
        | some k => f' k) := by
  intro h w w' hw
  match k, k', h with
  | none, none, _ => exact .both (J.fault _)
  | some k, some k', h => exact hf k k' (fun hs => Option.some.inj (h hs)) w w' hw
  | none, some k', h => exact .left (J.apart (fun hs => nomatch h hs) _).1
  | some k, none, h => exact .right (J.apart (fun hs => nomatch h hs) _).2

/-- So do the entries of a mapping, one after the other. -/
theorem Joins.beside_entries (J : T.Joins s s') (g : Graph) (es : List (NodeId × NodeId))
    {made made' : Assoc EntryKey NodeId} (h : T.Similar made made') :
    T.Beside T.Similar
      (es.foldlM (fun made (key, value) => do
        match Maker.keyOf? g key (← Maker.make s key) with
        | none => Maker.fail s .malformed
        | some k => do
          let _ ← Maker.make s value
          pure (made.insert k value)) made)
      (es.foldlM (fun made (key, value) => do
        match Maker.keyOf? g key (← Maker.make s' key) with
        | none => Maker.fail s' .malformed
        | some k => do
          let _ ← Maker.make s' value
          pure (made.insert k value)) made') := by
  induction es generalizing made made' with
  | nil => exact beside_pure h
  | cons e es ih =>
    rw [List.foldlM_cons, List.foldlM_cons]
    refine beside_bind ?_ fun _ _ hnext => ih hnext
    refine beside_bind (J.beside_make e.1) fun m m' hm => ?_
    have hkey : T.Similar (Maker.keyOf? g e.1 m) (Maker.keyOf? g e.1 m') := fun hs => by rw [hm hs]
    refine J.beside_key (fun k k' hk => ?_) hkey
    refine beside_bind (J.beside_make e.2) fun _ _ _ => beside_pure fun hs => ?_
    rw [hk hs, h hs]

/-- So do all entries of a mapping. -/
theorem Joins.beside_makeEntries (J : T.Joins s s') (id : NodeId) :
    T.Beside T.Similar (Maker.makeEntries s id) (Maker.makeEntries s' id) := by
  unfold Maker.makeEntries
  refine beside_bind beside_get fun w w' hw => ?_
  rw [hw.graph]
  refine beside_bind (J.beside_lift _) ?_
  rintro ⟨es, g⟩ _ rfl
  have hset : T.Alike { w with graph := g } { w' with graph := g } :=
    ⟨rfl, hw.waiting, hw.size, hw.isMade, hw.same⟩
  refine beside_bind (beside_set hset) fun _ _ _ => ?_
  exact J.beside_entries w'.graph es fun _ => rfl

/-- A pair is the same. -/
theorem Joins.beside_makePair (J : T.Joins s s') (id : NodeId) :
    T.Beside Eq (Maker.makePair s id) (Maker.makePair s' id) := by
  unfold Maker.makePair
  refine beside_bind beside_get fun w w' hw => ?_
  rw [hw.graph]
  split
  · refine beside_bind (J.beside_make _) fun _ _ _ => ?_
    exact beside_bind (J.beside_make _) fun _ _ _ => beside_pure rfl
  · exact J.beside_fail _

/-- Items are made one after the other. -/
theorem Joins.beside_items (J : T.Joins s s') (items : List NodeId) :
    T.Beside (fun _ _ => True)
      (forIn items PUnit.unit fun item _ => do
        let _ ← Maker.make s item
        pure (.yield PUnit.unit))
      (forIn items PUnit.unit fun item _ => do
        let _ ← Maker.make s' item
        pure (.yield PUnit.unit)) := by
  induction items with
  | nil => exact beside_pure trivial
  | cons item items ih =>
    rw [List.forIn_cons, List.forIn_cons, bind_assoc, bind_assoc]
    refine beside_bind (J.beside_make item) fun _ _ _ => ?_
    rw [pure_bind, pure_bind]
    exact ih

/-- So are pairs. -/
theorem Joins.beside_pairs (J : T.Joins s s') (items : List NodeId) :
    T.Beside Eq (items.mapM (Maker.makePair s)) (items.mapM (Maker.makePair s')) := by
  induction items with
  | nil => exact beside_pure rfl
  | cons item items ih =>
    rw [List.mapM_cons, List.mapM_cons]
    refine beside_bind (J.beside_makePair item) ?_
    rintro p _ rfl
    refine beside_bind ih ?_
    rintro ps _ rfl
    exact beside_pure rfl

/-- The body that a collection is filled with is noted in both readings. -/
theorem beside_noteBody (id : NodeId) {m : Maker ε Body} {m' : Maker ε' Body}
    (h : T.Beside T.Similar m m') :
    T.Beside (fun _ _ => True)
      (do
        let body ← m
        let _ ← Maker.note id (.collection body)
        pure ())
      (do
        let body ← m'
        let _ ← Maker.note id (.collection body)
        pure ()) := by
  refine beside_bind h fun b b' hb => ?_
  refine beside_bind (beside_note id fun hs => ?_) fun _ _ _ => beside_pure trivial
  rw [hb hs]

/-- Filling a collection. -/
theorem Joins.beside_fill (J : T.Joins s s') (id : NodeId) :
    T.Beside (fun _ _ => True) (Maker.fill s id) (Maker.fill s' id) := by
  unfold Maker.fill
  refine beside_bind beside_get fun w w' hw => ?_
  rw [hw.graph]
  have hfail : T.Beside T.Similar (Maker.fail s Fault.malformed : Maker ε Body)
      (Maker.fail s' Fault.malformed) := J.beside_fail _
  cases w'.graph[id]? with
  | none => exact beside_noteBody id hfail
  | some n =>
    obtain ⟨tag, shape⟩ := n
    cases tag with
    | sequence =>
      cases shape with
      | sequence items =>
        refine beside_bind (J.beside_items items) fun _ _ _ => ?_
        exact beside_noteBody id (beside_pure fun _ => rfl)
      | _ => exact beside_noteBody id hfail
    | mapping =>
      refine beside_noteBody id (beside_map (J.beside_makeEntries id) fun es es' he hs => ?_)
      rw [he hs]
    | set =>
      refine beside_noteBody id (beside_map (J.beside_makeEntries id) fun es es' he hs => ?_)
      rw [he hs]
    | pairs =>
      cases shape with
      | sequence items =>
        exact beside_noteBody id (beside_map (J.beside_pairs items) fun _ _ he _ => by rw [he])
      | _ => exact beside_noteBody id hfail
    | _ => exact beside_noteBody id hfail

/-- Filling all collections that wait for it, by induction on their number. -/
theorem Joins.beside_fillAll (J : T.Joins s s') (fuel : Nat) :
    T.Beside (fun _ _ => True) (Maker.fillAll s fuel) (Maker.fillAll s' fuel) := by
  induction fuel with
  | zero => exact beside_pure trivial
  | succ fuel ih =>
    unfold Maker.fillAll
    refine beside_bind beside_get fun w w' hw => ?_
    rw [hw.waiting]
    cases w'.waiting with
    | nil => exact beside_pure trivial
    | cons id ids =>
      refine beside_bind (beside_modify fun w w' hw => ?_) fun _ _ _ => ?_
      · exact ⟨hw.graph, rfl, hw.size, hw.isMade, hw.same⟩
      · exact beside_bind (J.beside_fill id) fun _ _ _ => ih

/-- Two readings of one document come out alike. -/
theorem Joins.outcome_readDocument (J : T.Joins s s') (text : String) :
    T.Outcome T.Similar (readDocument s text) (readDocument s' text) := by
  unfold readDocument
  cases readGraph text with
  | error f => exact .both (J.fault f)
  | ok r =>
    obtain ⟨g, root⟩ := r
    cases root with
    | none => exact .ok fun _ => rfl
    | some root =>
      have hstart : T.Alike ⟨g, Array.replicate g.size none, []⟩
          ⟨g, Array.replicate g.size none, []⟩ := ⟨rfl, rfl, rfl, fun _ => rfl, fun _ => rfl⟩
      have hmade := beside_bind (J.beside_make root) fun _ _ _ => J.beside_fillAll (g.size + 1)
      refine (hmade _ _ hstart).map fun (_, w) (_, w') h hs => ?_
      change contentOf w.made (g.size + 1) [] root = contentOf w'.made (g.size + 1) [] root
      rw [h.2.same hs]

end Making
end Tie

/-! ### Names that a document includes -/

/-- Surroundings that answer for some names and stop the reading with any other. -/
def naming (answers : String → Option Content) : Surroundings (Option String) where
  included name := (answers name).elim (.error (some name)) .ok
  fault _ := none

/-- An inclusion with an answer comes to it. -/
theorem naming_of_some {answers : String → Option Content} {name : String} {c : Content}
    (h : answers name = some c) : (naming answers).included name = .ok c := by
  simp [naming, h]

/-- One without an answer tells its name. -/
theorem naming_of_none {answers : String → Option Content} {name : String}
    (h : answers name = none) : (naming answers).included name = .error (some name) := by
  simp [naming, h]

/-- A document includes a name: with some answers for others, reading it stops with this name. -/
def Includes (text name : String) : Prop :=
  ∃ answers, readDocument (naming answers) text = .error (some name)

variable {s : Surroundings ε} {text : String}

/-- A document that cannot be read is faulty, or it includes a name that cannot be answered for. -/
theorem fault_or_includes_of_readDocument {e : ε} (h : readDocument s text = .error e) :
    (∃ f, e = s.fault f) ∨ ∃ name, s.included name = .error e ∧ Includes text name := by
  let T : Tie ε (Option String) :=
    ⟨True, fun _ => False, fun _ => False, fun e e' =>
      (∃ f, e = s.fault f ∧ e' = none) ∨ ∃ name, s.included name = .error e ∧ e' = some name⟩
  have J : T.Joins s (naming fun name => (s.included name).toOption) := by
    refine ⟨fun name => ?_, fun f => .inl ⟨f, rfl, rfl⟩, fun hs => absurd trivial hs⟩
    cases hname : s.included name with
    | ok c =>
      rw [naming_of_some (by rw [hname]; rfl)]
      exact .ok fun _ => rfl
    | error e =>
      rw [naming_of_none (by rw [hname]; rfl)]
      exact .both (.inr ⟨name, hname, rfl⟩)
  have houtcome := J.outcome_readDocument text
  rw [h] at houtcome
  generalize hr : readDocument (naming _) text = r at houtcome
  cases houtcome with
  | left h => exact h.elim
  | right h => exact h.elim
  | both h =>
    rcases h with ⟨f, hf, _⟩ | ⟨name, hname, rfl⟩
    · exact .inl ⟨f, hf⟩
    · exact .inr ⟨name, hname, _, hr⟩

/-- If a document can be read, every name that it includes is answered for. -/
theorem included_eq_ok_of_readDocument {c : Content} {name : String}
    (h : readDocument s text = .ok c) (hname : Includes text name) :
    ∃ c', s.included name = .ok c' := by
  obtain ⟨answers, hstops⟩ := hname
  -- The contents differ in the two readings, so one may stop where the other goes on; but whatever
  -- the right one asks for, the left one has been answered.
  let T : Tie ε (Option String) :=
    ⟨False, fun _ => True, fun e' => ∀ name, e' = some name → ∃ c', s.included name = .ok c',
      fun _ _ => True⟩
  have J : T.Joins s (naming answers) := by
    refine ⟨fun name => ?_, fun f => trivial, fun _ f => ⟨trivial, fun name h => by cases h⟩⟩
    cases hincluded : s.included name with
    | error e => exact .left trivial
    | ok c' =>
      cases hanswer : answers name with
      | some c =>
        rw [naming_of_some hanswer]
        exact .ok False.elim
      | none =>
        rw [naming_of_none hanswer]
        refine .right fun name' hn => ?_
        obtain rfl : name = name' := Option.some.inj hn
        exact ⟨c', hincluded⟩
  have houtcome := J.outcome_readDocument text
  rw [h, hstops] at houtcome
  cases houtcome with
  | right h => exact h name rfl

/-- Surroundings that answer for the names that a document includes only, with errors marked. -/
noncomputable def Surroundings.within (s : Surroundings ε) (text : String) (g : ε → ε') :
    Surroundings (Option ε') where
  included name :=
    open Classical in
    if Includes text name then (s.included name).mapError fun e => some (g e) else .error none
  fault f := some (g (s.fault f))

/-- A name that the text includes is asked for. -/
theorem Surroundings.within_of_includes {name : String} (h : Includes text name) (g : ε → ε') :
    (s.within text g).included name = (s.included name).mapError fun e => some (g e) := if_pos h

/-- Any other name is not. -/
theorem Surroundings.within_of_not_includes {name : String} (h : ¬ Includes text name)
    (g : ε → ε') : (s.within text g).included name = .error none := if_neg h

/-- A document asks for no names but those that it includes. -/
theorem readDocument_within (s : Surroundings ε) (text : String) (g : ε → ε') :
    readDocument (s.within text g) text =
      (readDocument s text).mapError fun e => some (g e) := by
  have hasked : readDocument (s.within text g) text ≠ .error none := by
    intro h
    rcases fault_or_includes_of_readDocument h with ⟨f, hf⟩ | ⟨name, herror, hname⟩
    · cases hf
    · rw [Surroundings.within_of_includes hname] at herror
      cases hincluded : s.included name <;> rw [hincluded] at herror <;> cases herror
  let T : Tie ε (Option ε') :=
    ⟨True, fun _ => False, fun e' => e' = none, fun e e' => e' = some (g e)⟩
  have J : T.Joins s (s.within text g) := by
    refine ⟨fun name => ?_, fun f => rfl, fun hs => absurd trivial hs⟩
    by_cases hname : Includes text name
    · rw [Surroundings.within_of_includes hname]
      cases s.included name with
      | ok c => exact .ok fun _ => rfl
      | error e => exact .both rfl
    · rw [Surroundings.within_of_not_includes hname]
      exact .right rfl
  have houtcome := J.outcome_readDocument text
  generalize readDocument s text = r at houtcome ⊢
  generalize readDocument (s.within text g) text = r' at houtcome hasked ⊢
  cases houtcome with
  | ok h => rw [h trivial]; rfl
  | left h => exact h.elim
  | right h => exact absurd (congrArg Except.error h) hasked
  | both h => rw [h]; rfl

/-- Telling failures apart from the lack of an answer loses nothing. -/
theorem mapError_some_inj {α : Type} {r r' : Except ε α}
    (h : r.mapError some = r'.mapError some) : r = r' := by
  cases r <;> cases r' <;> cases h <;> rfl

/-- What is read depends on the answers for the names that the document includes. -/
theorem readDocument_congr {s' : Surroundings ε'} {g : ε → ε'}
    (hincluded : ∀ name, Includes text name → s'.included name = (s.included name).mapError g)
    (hfault : ∀ f, s'.fault f = g (s.fault f)) :
    readDocument s' text = (readDocument s text).mapError g := by
  have hwithin : s'.within text id = s.within text g := by
    unfold Surroundings.within
    congr 1
    · funext name
      by_cases hname : Includes text name
      · rw [if_pos hname, if_pos hname, hincluded name hname]
        cases s.included name <;> rfl
      · rw [if_neg hname, if_neg hname]
    · funext f
      rw [hfault f]
      rfl
  refine mapError_some_inj ?_
  have h : readDocument (s'.within text id) text = (readDocument s' text).mapError some :=
    readDocument_within s' text id
  rw [← h, hwithin, readDocument_within s text g]
  cases readDocument s text <;> rfl

end ConfigAssembly.Yaml
