import ConfigAssembly.Number.Numeral
import ConfigAssembly.Text.Base64
import ConfigAssembly.Text.Case
import ConfigAssembly.Value
import ConfigAssembly.Yaml.Fault
import ConfigAssembly.Yaml.Tag

/-!
# Typed scalars

The value of a scalar of a given kind. The kind may have been written, so its text need not have the
form that the kind asks for.
-/

namespace ConfigAssembly.Yaml

open ConfigAssembly.Text

/-- A number without its low lines, and its sign apart; the flag tells a minus. A number has a
character at least. -/
def signedNumber (s : String) : Except Fault (Bool × List Char) :=
  match s.toList.filter (· != '_') with
  | [] => .error .noDigit
  | c :: cs =>
    .ok (if c == '-' then (true, cs) else if c == '+' then (false, cs) else (false, c :: cs))

/-- An integer of a base. -/
def intOfBase (base : Nat) (cs : List Char) : Except Fault Int :=
  match Numeral.readInteger base (String.ofList cs) with
  | .ok n => .ok n
  | .error .malformed => .error (.notInteger base (String.ofList cs))
  | .error (.tooLong n) => .error (.tooManyDigits n)

/-- An integer without its sign: binary (`0b`), hexadecimal (`0x`), octal (`0`), with parts to the
base 60, or decimal. -/
def unsignedInt (cs : List Char) : Except Fault Int :=
  match cs with
  | [] => .error .noDigit
  | ['0'] => .ok 0
  | '0' :: 'b' :: ds => intOfBase 2 ds
  | '0' :: 'x' :: ds => intOfBase 16 ds
  | '0' :: ds => intOfBase 8 ('0' :: ds)
  | ds => do
    let parts ← (pieces (· == ':') ds).mapM (intOfBase 10)
    pure (parts.foldl (fun n p => n * 60 + p) 0)

/-- An integer. -/
def intOf (s : String) : Except Fault Int := do
  let (negative, cs) ← signedNumber s
  let n ← unsignedInt cs
  pure (if negative then -n else n)

/-- A floating-point number in decimal. -/
def decimalOf (cs : List Char) : Except Fault Binary64 :=
  match Numeral.readFloat? (String.ofList cs) with
  | some x => .ok x
  | none => .error (.notNumber (String.ofList cs))

/-- The sum of parts to the base 60, the last part first, added to what is there. Every product and
sum is rounded, and the weight of a part must be in the range of floating-point numbers. -/
def sumOfSixties (sum : Binary64) (weight : Int) : List Binary64 → Except Fault Binary64
  | [] => .ok sum
  | p :: ps =>
    match Binary64.ofInt weight with
    | .infinity _ => .error .hugeUnit
    | w => sumOfSixties (Binary64.add sum (Binary64.mul p w)) (weight * 60) ps

/-- A floating-point number without its sign. -/
def unsignedFloat (cs : List Char) : Except Fault Binary64 :=
  match String.ofList cs with
  | ".inf" => .ok (.infinity false)
  | ".nan" => .ok .nan
  | _ =>
    if cs.contains ':' then
      ((pieces (· == ':') cs).mapM decimalOf) >>= fun parts =>
        sumOfSixties (Binary64.zero false) 1 parts.reverse
    else decimalOf cs

/-- Whether a text writes the number that is none by its word. -/
def writesNan (s : String) : Bool :=
  match signedNumber (lower s) with
  | .ok (_, cs) => cs == ['.', 'n', 'a', 'n']
  | .error _ => false

/-- A floating-point number. -/
def floatOf (s : String) : Except Fault Binary64 := do
  let (negative, cs) ← signedNumber (lower s)
  let x ← unsignedFloat cs
  pure (if negative then x.neg else x)

/-- A truth value, its word in any case. -/
def boolOf (s : String) : Except Fault Bool :=
  match Tag.truthWords.lookup (lower s) with
  | some b => .ok b
  | none => .error (.notBoolean (lower s))

/-- Bytes in base 64. -/
def bytesOf (s : String) : Except Fault (List UInt8) :=
  if s.toList.any fun c => 127 < c.toNat then .error .malformed
  else match bytesOfBase64? s.toList with
    | some bs => .ok bs
    | none => .error .malformed

/-- A timestamp. A line break after it does not matter. -/
def timestampOf (s : String) : Except Fault Timestamp :=
  let cs := s.toList
  match readTimestamp? (if cs.getLast? == some '\n' then cs.dropLast else cs) with
  | none => .error .notTimestamp
  | some t => (Timestamp.make t.year t.month t.day t.clock).mapError .timestamp

/-- The value of a scalar; the other kinds have no scalars. -/
def Tag.scalarValue (t : Tag) (s : String) : Except Fault Value :=
  match t with
  | .null => .ok .null
  | .bool => (boolOf s).map .bool
  | .int => (intOf s).map .int
  | .float => (floatOf s).map .float
  | .binary => (bytesOf s).map .bytes
  | .timestamp => (timestampOf s).map .moment
  | .str => .ok (.str s)
  | _ => .error .malformed

end ConfigAssembly.Yaml
