/-!
# Base 64

Bytes written with 64 characters, six bits each. Characters outside the alphabet are passed over,
and what follows the padding is not read.
-/

namespace ConfigAssembly.Text

/-- The six bits that a character stands for. -/
def sextet? (c : Char) : Option Nat :=
  let n := c.toNat
  if 'A' ≤ c ∧ c ≤ 'Z' then some (n - 65)
  else if 'a' ≤ c ∧ c ≤ 'z' then some (n - 71)
  else if '0' ≤ c ∧ c ≤ '9' then some (n + 4)
  else if c == '+' then some 62
  else if c == '/' then some 63
  else none

/-- The byte that a character completes: `held` are the bits of the characters before it in their
group of four, of which there are `place`. -/
def completedByte (place held bits : Nat) : List UInt8 :=
  match place with
  | 0 => []
  | 1 => [UInt8.ofNat (held % 64 * 4 + bits / 16)]
  | 2 => [UInt8.ofNat (held % 16 * 16 + bits / 4)]
  | _ => [UInt8.ofNat (held % 4 * 64 + bits)]

/-- Bytes from a place in a group of four characters on; `held` are the bits of the character before
and `pads` the marks of padding since then. An incomplete group without its padding is refused. -/
def base64From (place held pads : Nat) : List Char → Option (List UInt8)
  | [] => if place == 0 then some [] else none
  | c :: cs =>
    if c == '=' then
      if place < 2 then base64From place held pads cs
      else if 4 ≤ place + (pads + 1) then some []
      else base64From place held (pads + 1) cs
    else match sextet? c with
      | none => base64From place held pads cs
      | some bits =>
        (base64From ((place + 1) % 4) bits 0 cs).map (completedByte place held bits ++ ·)

/-- The bytes that a text stands for. -/
def bytesOfBase64? (cs : List Char) : Option (List UInt8) := base64From 0 0 0 cs

end ConfigAssembly.Text
