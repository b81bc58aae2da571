import ConfigAssembly.Fault
import ConfigAssembly.Value.Text

/-!
# Environments

Variables are looked up by name in the environment of the process, or in a mapping that is given in
its place. The process knows its variables by encoded names: a name is encoded before it is looked
up, which fails if it holds a half of a surrogate pair that stands for no byte.
-/

namespace ConfigAssembly

open ConfigAssembly.Text

/-! ### Encoding -/

/-- A half of a surrogate pair that stands for one byte of a text that could not be decoded. It is
encoded as this byte. -/
def isStrayByte (n : Nat) : Bool := 0xdc80 ≤ n && n < 0xdd00

/-- A code that has no encoding. -/
def isUnencodable (n : Nat) : Bool := isHalf n && !isStrayByte n

/-- A text can be encoded. -/
def isEncodable (s : String) : Bool := !(codes s.toList).any isUnencodable

/-- What keeps a text from being encoded: the first code without an encoding, and the halves that
follow it without a break. -/
def encodingFault (s : String) : Fault :=
  let before := (codes s.toList).takeWhile (!isUnencodable ·)
  let halves := ((codes s.toList).drop before.length).takeWhile isHalf
  let start := before.length
  let place := match halves with
    | [n] =>
      "character '\\u" ++ String.ofList (hexadecimal 4 n) ++ "' in position " ++ toString start
    | _ =>
      "characters in position " ++ toString start ++ "-" ++ toString (start + halves.length - 1)
  .said .encoding ("'utf-8' codec can't encode " ++ place ++ ": surrogates not allowed")

/-! ### Variables -/

/-- An environment of variables. -/
inductive Environment where
  /-- A mapping, which may hold something that is no text. -/
  | given (entries : Assoc String Value)
  /-- The environment of the process. -/
  | process (entries : Assoc String String)

namespace Environment

/-- The value of a variable, if there is one. -/
def get? : Environment → String → Except Fault (Option Value)
  | .given entries, name => .ok ((entries.get? name).filter (!·.isNull))
  | .process entries, name =>
    if isEncodable name then .ok ((entries.get? name).map .str) else .error (encodingFault name)

/-- All variables are texts. -/
def Textual (e : Environment) : Prop := ∀ name v, e.get? name = .ok (some v) → ∃ s, v = .str s

/-- The variables of the process are texts. -/
theorem textual_process (entries : Assoc String String) : (process entries).Textual := by
  intro name v h
  simp only [get?] at h
  split at h
  · obtain ⟨s, _, rfl⟩ := Option.map_eq_some_iff.1 (Except.ok.inj h)
    exact ⟨s, rfl⟩
  · cases h

/-- Looking up a variable of the process fails for names without an encoding only. -/
theorem get?_process_eq_error_iff {entries : Assoc String String} {name : String} {f : Fault} :
    (process entries).get? name = .error f ↔
      isEncodable name = false ∧ f = encodingFault name := by
  simp only [get?]
  split
  · rename_i h
    exact ⟨fun h' => (by cases h'), fun h' => absurd (h.symm.trans h'.1) (by decide)⟩
  · rename_i h
    exact ⟨fun h' => ⟨Bool.eq_false_iff.2 h, (Except.error.inj h').symm⟩,
      fun h' => congrArg Except.error h'.2.symm⟩

end Environment

/-! ### Texts of values -/

/-- A value that was found as a text. An integer that is too long has none. -/
def Value.written? : Option Value → Except Fault (Option Value)
  | none => .ok none
  | some v =>
    if v.isTooLong then .error (.said .value Value.longIntegerMessage) else .ok (some (.str v.text))

/-- A text is its own text. -/
@[simp] theorem Value.written?_str (s : String) :
    Value.written? (some (.str s)) = .ok (some (.str s)) := rfl

/-- What is written is a text. -/
theorem Value.exists_str_of_written? {o : Option Value} {v : Value}
    (h : Value.written? o = .ok (some v)) : ∃ s, v = .str s := by
  cases o with
  | none => cases h
  | some u =>
    simp only [Value.written?] at h
    split at h
    · cases h
    · exact ⟨u.text, (Option.some.inj (Except.ok.inj h)).symm⟩

end ConfigAssembly
