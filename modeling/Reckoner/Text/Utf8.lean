/-!
# UTF-8

Octets are read one at a time. Between two characters the next octet opens a character; otherwise
one or more octets are owed, and the next one has to lie in a range that rules out overlong forms,
surrogates and numbers beyond the last code point. An octet that does not fit ends what was begun –
that part is no character – and is looked at again as the first of a new one.

So a sequence of octets always has a reading, in which what is not UTF-8 shows up as places without
a character, one for each longest part that could have begun one.
-/

namespace Reckoner.Text.Utf8

-- Powers are those of the core library, also where an algebra library is imported.
attribute [local instance (high)] instPowNat

/-- **What is owed** before the character that was begun is complete: how many octets, the range of
the next one, and the number read so far. -/
structure Owed where
  count : Nat
  low : Nat
  high : Nat
  value : Nat

/-- What the first octet of a character says. -/
inductive Opening where
  /-- It is a character by itself. -/
  | char (c : Char)
  /-- More octets belong to it. -/
  | more (owed : Owed)
  /-- No character begins with it. -/
  | invalid

/-- **The meaning of a first octet.** -/
def opening (n : Nat) : Opening :=
  if n < 0x80 then .char (Char.ofNat n)
  else if n < 0xC2 then .invalid
  else if n < 0xE0 then .more ⟨1, 0x80, 0xBF, n - 0xC0⟩
  else if n = 0xE0 then .more ⟨2, 0xA0, 0xBF, 0⟩
  else if n = 0xED then .more ⟨2, 0x80, 0x9F, 0xD⟩
  else if n < 0xF0 then .more ⟨2, 0x80, 0xBF, n - 0xE0⟩
  else if n = 0xF0 then .more ⟨3, 0x90, 0xBF, 0⟩
  else if n < 0xF4 then .more ⟨3, 0x80, 0xBF, n - 0xF0⟩
  else if n = 0xF4 then .more ⟨3, 0x80, 0x8F, 4⟩
  else .invalid

/-- The reading of octets, given what is owed. -/
def readFrom : Option Owed → List UInt8 → List (Option Char)
  | none, [] => []
  | some _, [] => [none]
  | pending, octet :: octets =>
    let n := octet.toNat
    let fresh (before : List (Option Char)) : List (Option Char) :=
      match opening n with
      | .char c => before ++ some c :: readFrom none octets
      | .more owed => before ++ readFrom (some owed) octets
      | .invalid => before ++ none :: readFrom none octets
    match pending with
    | none => fresh []
    | some owed =>
      if owed.low ≤ n && n ≤ owed.high then
        let value := owed.value * 64 + n % 64
        if owed.count ≤ 1 then some (Char.ofNat value) :: readFrom none octets
        else readFrom (some ⟨owed.count - 1, 0x80, 0xBF, value⟩) octets
      else fresh [none]

/-- **The reading of octets**: their characters, and nothing where they are no UTF-8. -/
def read (octets : List UInt8) : List (Option Char) := readFrom none octets

/-- **The text that octets encode**, if they are UTF-8 throughout. -/
def decode? (octets : List UInt8) : Option (List Char) := (read octets).mapM id

/-- The octets of a character. -/
def encodeChar (c : Char) : List UInt8 :=
  let n := c.toNat
  let tail (shift : Nat) : Nat := 0x80 + n / 64 ^ shift % 64
  let octets : List Nat :=
    if n < 0x80 then [n]
    else if n < 0x800 then [0xC0 + n / 64, tail 0]
    else if n < 0x10000 then [0xE0 + n / 64 ^ (2 : Nat), tail 1, tail 0]
    else [0xF0 + n / 64 ^ (3 : Nat), tail 2, tail 1, tail 0]
  octets.map UInt8.ofNat

/-- **The octets that encode a text.** -/
def encode (cs : List Char) : List UInt8 := cs.flatMap encodeChar

end Reckoner.Text.Utf8
