import ConfigAssembly.Environment

/-!
# Substitution

Tokens between `${` and `}` in configured texts are replaced by what their key resolves to:

* `${name}` is the property `name`;
* `${env:NAME}` is the environment variable `NAME`;
* `${event:key}` is the entry `key` of the event at hand, if there is one;
* `${key:-fallback}` is any of these, or the fallback if the key resolves to nothing;
* `$${…}` is an escaped token and stands for `${…}` as it is.

A token without a fallback whose key resolves to nothing is left as it is. Replacement goes from the
innermost tokens outwards in at most `Substitution.rounds` rounds. A shield character stands for an
opening that is no longer looked at, from an escape or from a token that was left, until all rounds
are over.

Looking up a key may fail, and a variable of a given environment may hold something that is no text,
which cannot stand for a token: `Sources.misfit` tells when that happens, and `Sources.replaced` is
`Sources.replace` unless it does.
-/

namespace ConfigAssembly

/-- The entries of an event. -/
abbrev Event := Assoc String Value

/-- Where the keys of tokens are looked up. -/
structure Sources where
  properties : Assoc Value Value
  environment : Environment

namespace Substitution

/-- The number of rounds of replacement. -/
def rounds : Nat := 8

/-- The character that stands for a shielded opening. -/
def shield : Char := '\x00'

/-- The opening of a token. -/
def opening : List Char := ['$', '\x7b']

/-- The end of a token. -/
def closing : Char := '\x7d'

/-- The parts before and after the first occurrence of a pattern. -/
def cut? (pattern : List Char) : List Char → Option (List Char × List Char)
  | [] => if pattern.isEmpty then some ([], []) else none
  | c :: cs =>
    if pattern.isPrefixOf (c :: cs) then some ([], (c :: cs).drop pattern.length)
    else (cut? pattern cs).map fun (before, after) => (c :: before, after)

/-- The parts and the pattern between them are the text. -/
theorem eq_append_of_cut? {pattern cs before after : List Char}
    (h : cut? pattern cs = some (before, after)) :
    cs = before ++ pattern ++ after := by
  induction cs generalizing before with
  | nil =>
    unfold cut? at h
    split at h
    · rename_i hp
      obtain ⟨rfl, rfl⟩ : [] = before ∧ [] = after := by simpa using h
      simpa using hp
    · simp at h
  | cons c cs ih =>
    unfold cut? at h
    split at h
    · rename_i hp
      obtain ⟨rfl, rfl⟩ : [] = before ∧ (c :: cs).drop pattern.length = after := by simpa using h
      obtain ⟨rest, hr⟩ := List.isPrefixOf_iff_prefix.1 hp
      simp [← hr]
    · obtain ⟨⟨b, a⟩, hba, he⟩ := Option.map_eq_some_iff.1 h
      obtain ⟨rfl, rfl⟩ : c :: b = before ∧ a = after := by simpa using he
      simp [ih hba]

/-- What the key of a token resolves to, if it resolves to anything: a text, or a variable of the
environment as it is. -/
def lookup (sources : Sources) (event : Option Event) (key : String) :
    Except Fault (Option Value) :=
  match cut? [':'] key.toList with
  | some (['e', 'n', 'v'], name) => sources.environment.get? (String.ofList name)
  | some (['e', 'v', 'e', 'n', 't'], name) =>
    Value.written? (event.bind fun e => e.get? (String.ofList name))
  | _ => Value.written? (sources.properties.get? (.str key))

/-- What a look-up found, if it did not fail. -/
def found? : Except Fault (Option Value) → Option Value
  | .ok o => o
  | .error _ => none

/-- What a look-up that goes well gives. -/
@[simp] theorem found?_ok (o : Option Value) : found? (.ok o) = o := rfl

/-- The text of what the key of a token resolves to. -/
def lookupText (sources : Sources) (event : Option Event) (key : String) : Option String :=
  (found? (lookup sources event key)).map Value.text

/-- Whether the opening of a token occurs. -/
def hasOpening : List Char → Bool
  | [] => false
  | c :: cs => opening.isPrefixOf (c :: cs) || hasOpening cs

/-- Replaces each escaped opening by the shield. -/
def shieldEscapes : List Char → List Char
  | '$' :: '$' :: '\x7b' :: cs => shield :: shieldEscapes cs
  | c :: cs => c :: shieldEscapes cs
  | [] => []

/-- Replaces each shield by an opening. -/
def unshield (cs : List Char) : List Char :=
  cs.flatMap fun c => if c == shield then opening else [c]

/-- Shields are taken off piece by piece. -/
@[simp] theorem unshield_append (a b : List Char) :
    unshield (a ++ b) = unshield a ++ unshield b := by
  simp [unshield]

/-- A text without shields stays as it is. -/
theorem unshield_of_not_mem {cs : List Char} (h : shield ∉ cs) : unshield cs = cs := by
  induction cs with
  | nil => rfl
  | cons c cs ih =>
    have hc : c ≠ shield := fun e => h (e ▸ List.mem_cons_self)
    have ht : unshield cs = cs := ih fun m => h (List.mem_cons_of_mem c m)
    calc unshield (c :: cs) = unshield [c] ++ unshield cs := unshield_append [c] cs
      _ = c :: cs := by rw [ht]; simp [unshield, hc]

/-- A character that the body of an innermost token may hold. -/
def inBody (c : Char) : Bool := c != '$' && c != '\x7b' && c != '\x7d'

/-- The body of the token that follows an opening, and the rest after its end, if the token has no
other inside. -/
def body? (cs : List Char) : Option (List Char × List Char) :=
  match cs.dropWhile inBody with
  | c :: rest => if c == closing then some (cs.takeWhile inBody, rest) else none
  | [] => none

/-- What stands for a token with a given body: what its key resolves to, else its fallback, else the
token itself with a shielded opening. -/
def replacement (resolve : String → Option String) (body : List Char) : List Char :=
  match cut? [':', '-'] body with
  | some (key, fallback) => ((resolve (String.ofList key)).map String.toList).getD fallback
  | none =>
    match resolve (String.ofList body) with
    | some s => s.toList
    | none => shield :: body ++ [closing]

/-- The rest after a token is shorter than what follows its opening. -/
theorem length_lt_of_body? {cs body rest : List Char} (h : body? cs = some (body, rest)) :
    rest.length < cs.length := by
  unfold body? at h
  split at h <;> rename_i hd
  · split at h
    · obtain ⟨rfl, rfl⟩ : _ = body ∧ _ = rest := by simpa using h
      have := (List.dropWhile_sublist inBody (l := cs)).length_le
      rw [hd] at this
      simp only [List.length_cons] at this
      omega
    · simp at h
  · simp at h

/-- One round of replacement. The flag tells that the character before is a dollar, after which no
token begins. -/
def round (resolve : String → Option String) (afterDollar : Bool) : List Char → List Char
  | [] => []
  | [c] => [c]
  | c :: d :: cs =>
    if c == '$' && d == '\x7b' && !afterDollar then
      match _h : body? cs with
      | some (body, rest) => replacement resolve body ++ round resolve false rest
      | none => c :: round resolve true (d :: cs)
    else c :: round resolve (c == '$') (d :: cs)
termination_by cs => cs.length
decreasing_by
  · have := length_lt_of_body? _h
    simp only [List.length_cons]
    omega
  · simp
  · simp

/-- Several rounds of replacement. -/
def replaceRounds (resolve : String → Option String) : Nat → List Char → List Char
  | 0, cs => cs
  | n + 1, cs => replaceRounds resolve n (round resolve false cs)

/-- Replaces the tokens of a text by what their keys resolve to. -/
def expand (resolve : String → Option String) (s : String) : String :=
  if hasOpening s.toList then
    String.ofList (unshield (replaceRounds resolve rounds (shieldEscapes s.toList)))
  else s

/-- The key in the body of a token. -/
def keyOf (body : List Char) : String :=
  String.ofList (((cut? [':', '-'] body).map (·.1)).getD body)

/-- The keys of the tokens that one round replaces, in their order. The flag tells that the
character before is a dollar, after which no token begins. -/
def keysIn (afterDollar : Bool) : List Char → List String
  | [] => []
  | [_] => []
  | c :: d :: cs =>
    if c == '$' && d == '\x7b' && !afterDollar then
      match _h : body? cs with
      | some (body, rest) => keyOf body :: keysIn false rest
      | none => keysIn true (d :: cs)
    else keysIn (c == '$') (d :: cs)
termination_by cs => cs.length
decreasing_by
  · have := length_lt_of_body? _h
    simp only [List.length_cons]
    omega
  · simp
  · simp

/-- What the first look-up that fails fails with. -/
def firstFault (resolve : String → Except Fault (Option Value)) : List String → Option Fault
  | [] => none
  | key :: keys =>
    match resolve key with
    | .error f => some f
    | .ok _ => firstFault resolve keys

/-- The first token of a text whose key resolves to something that is no text, with the number of
parts that the text has before it: tokens, and stretches without any. `parts` are those that are
complete, `pending` tells whether a stretch is open. -/
def misfitIn (resolve : String → Option Value) (afterDollar : Bool) (parts : Nat) (pending : Bool) :
    List Char → Option (Nat × Value)
  | [] => none
  | [_] => none
  | c :: d :: cs =>
    if c == '$' && d == '\x7b' && !afterDollar then
      match _h : body? cs with
      | some (body, rest) =>
        let parts := if pending then parts + 1 else parts
        match (resolve (keyOf body)).filter (·.str?.isNone) with
        | some v => some (parts, v)
        | none => misfitIn resolve false (parts + 1) false rest
      | none => misfitIn resolve true parts true (d :: cs)
    else misfitIn resolve (c == '$') parts true (d :: cs)
termination_by cs => cs.length
decreasing_by
  · have := length_lt_of_body? _h
    simp only [List.length_cons]
    omega
  · simp
  · simp

/-- What goes wrong in the first of several rounds that cannot be completed: a key cannot be looked
up, or, once all are, something that is no text should stand for a token. -/
def misfitWithin (resolve : String → Except Fault (Option Value)) : Nat → List Char → Option Fault
  | 0, _ => none
  | n + 1, cs =>
    match firstFault resolve (keysIn false cs),
      misfitIn (fun key => found? (resolve key)) false 0 false cs with
    | some f, _ => some f
    | none, some (i, v) =>
      some (.said .type ("sequence item " ++ toString i ++ ": expected str instance, " ++
        v.typeName ++ " found"))
    | none, none =>
      misfitWithin resolve n (round (fun key => (found? (resolve key)).map Value.text) false cs)

end Substitution

/-- Replaces the tokens of a text. -/
def Sources.replace (sources : Sources) (event : Option Event) (s : String) : String :=
  Substitution.expand (Substitution.lookupText sources event) s

/-- Why the tokens of a text cannot be replaced. -/
def Sources.misfit (sources : Sources) (event : Option Event) (s : String) : Option Fault :=
  Substitution.misfitWithin (Substitution.lookup sources event) Substitution.rounds
    (Substitution.shieldEscapes s.toList)

/-- Replaces the tokens of a text if they can be. -/
def Sources.replaced (sources : Sources) (event : Option Event) (s : String) :
    Except Fault String :=
  match sources.misfit event s with
  | some f => .error f
  | none => .ok (sources.replace event s)

/-- Replaces the tokens of a value if it is a text. -/
def Sources.replaceIn (sources : Sources) (event : Option Event) : Value → Except Fault Value
  | .str s => (sources.replaced event s).map .str
  | v => .ok v

end ConfigAssembly
