import Reckoner.Decimal.Basic

/-!
# JSON documents

The settings file is a JSON document. Reading follows the grammar of that format, with
three words more for numbers: `NaN`, `Infinity` and `-Infinity`. Blanks are the four of the grammar
and no others, a text must not hold raw control characters, and nothing but blanks may follow the
value.

Integers are kept exactly, but a literal of more than `maxIntegerDigits` digits is refused, and not
as a mistake in the grammar. Arrays and objects may not be nested in each other to any depth: the
reader has only so much room, and gives up where it would have to go deeper. Where several things
are wrong the first one counts. A number with a point or an exponent is kept as the decimal that is
written; what that means in binary is not decided here.

A text may name half of a surrogate pair, which is no character. Such a text is `none`.
-/

namespace Reckoner

/-- **JSON values.** -/
inductive JsonValue where
  | null
  | flag (value : Bool)
  | integer (value : Int)
  | fraction (value : Decimal)
  | text (value : Option String)
  | array (items : List JsonValue)
  | object (members : List (Option String × JsonValue))

/-- **Why a document cannot be read.** -/
inductive JsonFault where
  /-- It is not in the grammar. -/
  | malformed
  /-- An integer has too many digits. -/
  | longInteger
  /-- Arrays and objects are nested too deep. -/
  | tooDeep
deriving DecidableEq

namespace JsonValue

/-- Whether a character is a blank between values. -/
def isGap (c : Char) : Bool := c == ' ' || c == '\t' || c == '\n' || c == '\r'

/-- The characters from the first on that is no blank. -/
def skipGap (cs : List Char) : List Char := cs.dropWhile isGap

theorem length_skipGap_le (cs : List Char) : (skipGap cs).length ≤ cs.length :=
  (List.dropWhile_sublist isGap).length_le

/-- **What was read, and the characters after it**, fewer than `bound`. -/
structure Part (α : Type) (bound : Nat) where
  value : α
  rest : List Char
  rest_lt : rest.length < bound

namespace Part

/-- The same part where more characters may be left. -/
def relax {α : Type} {m n : Nat} (p : Part α m) (h : m ≤ n) : Part α n :=
  ⟨p.value, p.rest, Nat.lt_of_lt_of_le p.rest_lt h⟩

/-- The same rest after another value. -/
def map {α β : Type} {n : Nat} (f : α → β) (p : Part α n) : Part β n := ⟨f p.value, p.rest, p.rest_lt⟩

end Part

/-! ## Texts -/

/-- The value of a hexadecimal digit. -/
def hexValue? (c : Char) : Option Nat :=
  if '0' ≤ c && c ≤ '9' then some (c.toNat - '0'.toNat)
  else if 'a' ≤ c && c ≤ 'f' then some (c.toNat - 'a'.toNat + 10)
  else if 'A' ≤ c && c ≤ 'F' then some (c.toNat - 'A'.toNat + 10)
  else none

/-- The number of four hexadecimal digits. -/
def hexQuad? (a b c d : Char) : Option Nat := do
  some (((← hexValue? a) * 16 + (← hexValue? b)) * 256 + (← hexValue? c) * 16 + (← hexValue? d))

/-- What a character after a backslash stands for. -/
def escape? (c : Char) : Option Char :=
  match c with
  | '"' => some '"'
  | '\\' => some '\\'
  | '/' => some '/'
  | 'b' => some '\x08'
  | 'f' => some '\x0c'
  | 'n' => some '\n'
  | 'r' => some '\r'
  | 't' => some '\t'
  | _ => none

/-- The code points of a text up to its closing quotation mark, and what follows that. -/
def readPoints : List Char → Except JsonFault (List Nat × List Char)
  | [] => .error .malformed
  | '"' :: rest => .ok ([], rest)
  | '\\' :: 'u' :: a :: b :: c :: d :: rest =>
    match hexQuad? a b c d with
    | some n => (readPoints rest).map fun (points, after) => (n :: points, after)
    | none => .error .malformed
  | '\\' :: c :: rest =>
    match escape? c with
    | some e => (readPoints rest).map fun (points, after) => (e.toNat :: points, after)
    | none => .error .malformed
  | c :: rest =>
    if c.toNat < 0x20 || c = '\\' then .error .malformed
    else (readPoints rest).map fun (points, after) => (c.toNat :: points, after)

theorem length_lt_of_readPoints {cs : List Char} {points : List Nat} {after : List Char}
    (h : readPoints cs = .ok (points, after)) : after.length < cs.length := by
  fun_induction readPoints cs generalizing points after with
  | case1 => simp at h
  | case2 rest =>
    simp only [Except.ok.injEq, Prod.mk.injEq] at h
    simp [← h.2]
  | case3 a b c d rest n _ ih =>
    cases hr : readPoints rest with
    | error e => simp [hr, Except.map] at h
    | ok p =>
      obtain ⟨ps, aft⟩ := p
      simp only [hr, Except.map, Except.ok.injEq, Prod.mk.injEq] at h
      have := ih hr
      simp only [← h.2, List.length_cons]
      omega
  | case4 => simp at h
  | case5 c rest _ e _ ih =>
    cases hr : readPoints rest with
    | error e => simp [hr, Except.map] at h
    | ok p =>
      obtain ⟨ps, aft⟩ := p
      simp only [hr, Except.map, Except.ok.injEq, Prod.mk.injEq] at h
      have := ih hr
      simp only [← h.2, List.length_cons]
      omega
  | case6 => simp at h
  | case7 => simp at h
  | case8 c rest _ _ _ _ ih =>
    cases hr : readPoints rest with
    | error e => simp [hr, Except.map] at h
    | ok p =>
      obtain ⟨ps, aft⟩ := p
      simp only [hr, Except.map, Except.ok.injEq, Prod.mk.injEq] at h
      have := ih hr
      simp only [← h.2, List.length_cons]
      omega

/-- Whether a code point is the first half of a surrogate pair. -/
def isHighHalf (n : Nat) : Bool := 0xD800 ≤ n && n < 0xDC00

/-- Whether a code point is the second half of a surrogate pair. -/
def isLowHalf (n : Nat) : Bool := 0xDC00 ≤ n && n < 0xE000

/-- **The characters of code points**, pairs of surrogates being one each; nothing if half of a pair
stands alone. -/
def charsOfPoints? : List Nat → Option (List Char)
  | [] => some []
  | m :: n :: rest =>
    if isHighHalf m && isLowHalf n then
      (charsOfPoints? rest).map (Char.ofNat (0x10000 + (m - 0xD800) * 0x400 + (n - 0xDC00)) :: ·)
    else if isHighHalf m || isLowHalf m then none
    else (charsOfPoints? (n :: rest)).map (Char.ofNat m :: ·)
  | [m] => if isHighHalf m || isLowHalf m then none else some [Char.ofNat m]

/-- A text, read from behind its opening quotation mark. -/
def readText (cs : List Char) : Except JsonFault (Part (Option String) cs.length) :=
  match h : readPoints cs with
  | .ok (points, after) =>
    .ok ⟨(charsOfPoints? points).map String.ofList, after, length_lt_of_readPoints h⟩
  | .error fault => .error fault

/-! ## Numbers -/

/-- The digits at the front of a text, and the rest. -/
def spanDigits (cs : List Char) : List Char × List Char :=
  (cs.takeWhile Char.isDigit, cs.dropWhile Char.isDigit)

/-- The places after a point, and the rest. A point without digits behind it is left where it is. -/
def readPlaces (cs : List Char) : Option (List Char) × List Char :=
  match cs with
  | '.' :: rest =>
    let (digits, after) := spanDigits rest
    if digits.isEmpty then (none, cs) else (some digits, after)
  | _ => (none, cs)

/-- Whether a minus sign stands in front, and what follows the sign. -/
def readSign (cs : List Char) : Bool × List Char :=
  match cs with
  | '-' :: rest => (true, rest)
  | '+' :: rest => (false, rest)
  | cs => (false, cs)

/-- An exponent, and the rest. A mark without digits behind it is left where it is. -/
def readExponent (cs : List Char) : Option Int × List Char :=
  match cs with
  | [] => (none, [])
  | mark :: rest =>
    if mark = 'e' || mark = 'E' then
      let (negative, unsigned) := readSign rest
      let (digits, after) := spanDigits unsigned
      if digits.isEmpty then (none, mark :: rest)
      else
        let n : Int := digitsValue digits
        (some (if negative then -n else n), after)
    else (none, mark :: rest)

/-- The digits before the point, and the rest: a zero stands alone. -/
def readWhole? (cs : List Char) : Option (List Char × List Char) :=
  match cs with
  | '0' :: rest => some (['0'], rest)
  | _ =>
    let (digits, rest) := spanDigits cs
    if digits.isEmpty then none else some (digits, rest)

/-- **A number**, read from behind its sign, and the rest. -/
def readNumber (negative : Bool) (cs : List Char) : Except JsonFault (JsonValue × List Char) :=
  match readWhole? cs with
  | none => .error .malformed
  | some (whole, rest) =>
    let (places, rest) := readPlaces rest
    let (exponent, rest) := readExponent rest
    match places, exponent with
    | none, none =>
      if maxIntegerDigits < whole.length then .error .longInteger
      else
        let n : Int := digitsValue whole
        .ok (.integer (if negative then -n else n), rest)
    | _, _ =>
      let places := places.getD []
      .ok (.fraction (.finite ⟨negative, digitsValue (whole ++ places),
        exponent.getD 0 - places.length⟩), rest)

theorem length_spanDigits (cs : List Char) :
    (spanDigits cs).1.length + (spanDigits cs).2.length = cs.length := by
  rw [spanDigits, ← List.length_append, List.takeWhile_append_dropWhile]

theorem length_readPlaces_le (cs : List Char) : (readPlaces cs).2.length ≤ cs.length := by
  unfold readPlaces
  split
  · next rest =>
    have := length_spanDigits rest
    dsimp only
    split
    · simp
    · simp only [List.length_cons]
      omega
  · simp

theorem length_readSign_le (cs : List Char) : (readSign cs).2.length ≤ cs.length := by
  unfold readSign
  split <;> simp

theorem length_readExponent_le (cs : List Char) : (readExponent cs).2.length ≤ cs.length := by
  unfold readExponent
  split
  · simp
  · next mark rest =>
    have h1 := length_readSign_le rest
    have h2 := length_spanDigits (readSign rest).2
    split
    · dsimp only
      split
      · simp
      · simp only [List.length_cons]
        omega
    · simp

theorem length_readWhole?_lt {cs whole rest : List Char} (h : readWhole? cs = some (whole, rest)) :
    rest.length < cs.length := by
  unfold readWhole? at h
  split at h
  · simp only [Option.some.injEq, Prod.mk.injEq] at h
    simp [← h.2]
  · have hs := length_spanDigits cs
    dsimp only at h
    split at h
    · simp at h
    · next hne =>
      simp only [Option.some.injEq, Prod.mk.injEq] at h
      have : 0 < (spanDigits cs).1.length := by
        cases hd : (spanDigits cs).1 with
        | nil => simp [hd] at hne
        | cons => simp
      rw [← h.2]
      omega

theorem length_lt_of_readNumber {negative : Bool} {cs : List Char} {v : JsonValue}
    {rest : List Char} (h : readNumber negative cs = .ok (v, rest)) : rest.length < cs.length := by
  unfold readNumber at h
  split at h
  · simp at h
  · next whole after hw =>
    have h1 := length_readWhole?_lt hw
    have h2 := length_readPlaces_le after
    have h3 := length_readExponent_le (readPlaces after).2
    dsimp only at h
    split at h
    · split at h
      · simp at h
      · simp only [Except.ok.injEq, Prod.mk.injEq] at h
        rw [← h.2]
        omega
    · simp only [Except.ok.injEq, Prod.mk.injEq] at h
      rw [← h.2]
      omega

/-! ## Values -/

/-- The words that are values. -/
def words : List (String × JsonValue) :=
  [("null", .null), ("true", .flag true), ("false", .flag false), ("NaN", .fraction (.nan false false 0)),
    ("Infinity", .fraction (.infinite false)), ("-Infinity", .fraction (.infinite true))]

/-- A word that is a value, or a number. -/
def readPlain (cs : List Char) : Except JsonFault (Part JsonValue cs.length) :=
  match words.find? fun w => w.1.toList.isPrefixOf cs with
  | some (word, value) =>
    let rest := cs.drop word.toList.length
    if h : rest.length < cs.length then .ok ⟨value, rest, h⟩ else .error .malformed
  | none =>
    match cs with
    | '-' :: digits =>
      match h : readNumber true digits with
      | .ok (value, rest) => .ok ⟨value, rest, Nat.lt_succ_of_lt (length_lt_of_readNumber h)⟩
      | .error fault => .error fault
    | cs =>
      match h : readNumber false cs with
      | .ok (value, rest) => .ok ⟨value, rest, length_lt_of_readNumber h⟩
      | .error fault => .error fault

mutual

/-- **A value** at the front of a text. There is room for `room` arrays and objects inside each
other. -/
def readValue (room : Nat) (cs : List Char) : Except JsonFault (Part JsonValue cs.length) :=
  match cs with
  | [] => .error .malformed
  | c :: rest =>
    if c = '"' then (readText rest).map fun p => (p.map .text).relax (Nat.le_succ _)
    else if c = '[' then
      match room with
      | 0 => .error .tooDeep
      | room + 1 =>
        match hs : skipGap rest with
        | [] => .error .malformed
        | d :: after =>
          have : (d :: after).length ≤ rest.length := hs ▸ length_skipGap_le rest
          if d = ']' then .ok ⟨.array [], after, by simp only [List.length_cons] at *; omega⟩
          else (readItems room (d :: after)).map fun p =>
            (p.map .array).relax (by simp only [List.length_cons] at *; omega)
    else if c = '\x7b' then
      match room with
      | 0 => .error .tooDeep
      | room + 1 =>
        match hs : skipGap rest with
        | [] => .error .malformed
        | d :: after =>
          have : (d :: after).length ≤ rest.length := hs ▸ length_skipGap_le rest
          if d = '\x7d' then .ok ⟨.object [], after, by simp only [List.length_cons] at *; omega⟩
          else (readMembers room (d :: after)).map fun p =>
            (p.map .object).relax (by simp only [List.length_cons] at *; omega)
    else readPlain (c :: rest)
termination_by 2 * cs.length
decreasing_by all_goals (simp only [List.length_cons] at *; omega)

/-- The items of an array, at least one, up to its end. -/
def readItems (room : Nat) (cs : List Char) : Except JsonFault (Part (List JsonValue) cs.length) :=
  match readValue room cs with
  | .error fault => .error fault
  | .ok ⟨item, rest, h⟩ =>
    match hs : skipGap rest with
    | [] => .error .malformed
    | d :: after =>
      have hle : (d :: after).length ≤ rest.length := hs ▸ length_skipGap_le rest
      if d = ']' then .ok ⟨[item], after, by simp only [List.length_cons] at *; omega⟩
      else if d = ',' then
        have hsk := length_skipGap_le after
        (readItems room (skipGap after)).map fun p =>
          (p.map (item :: ·)).relax (by simp only [List.length_cons] at *; omega)
      else .error .malformed
termination_by 2 * cs.length + 1
decreasing_by
  · omega
  · simp only [List.length_cons] at *
    omega

/-- The members of an object, at least one, up to its end. -/
def readMembers (room : Nat) (cs : List Char) :
    Except JsonFault (Part (List (Option String × JsonValue)) cs.length) :=
  match cs with
  | [] => .error .malformed
  | c :: start =>
    if c ≠ '"' then .error .malformed
    else
      match readText start with
      | .error fault => .error fault
      | .ok ⟨key, afterKey, hk⟩ =>
        match hs : skipGap afterKey with
        | [] => .error .malformed
        | d :: afterColon =>
          have hc : (d :: afterColon).length ≤ afterKey.length := hs ▸ length_skipGap_le afterKey
          if d ≠ ':' then .error .malformed
          else
            have hv := length_skipGap_le afterColon
            match readValue room (skipGap afterColon) with
            | .error fault => .error fault
            | .ok ⟨value, rest, h⟩ =>
              match ht : skipGap rest with
              | [] => .error .malformed
              | e :: after =>
                have he : (e :: after).length ≤ rest.length := ht ▸ length_skipGap_le rest
                if e = '\x7d' then
                  .ok ⟨[(key, value)], after, by simp only [List.length_cons] at *; omega⟩
                else if e = ',' then
                  have hm := length_skipGap_le after
                  (readMembers room (skipGap after)).map fun p =>
                    (p.map ((key, value) :: ·)).relax (by simp only [List.length_cons] at *; omega)
                else .error .malformed
termination_by 2 * cs.length + 1
decreasing_by all_goals (simp only [List.length_cons] at *; omega)

end

/-- **Read a document**, in which arrays and objects may be nested `room` deep. A byte order mark in
front is not allowed. -/
def ofText (room : Nat) (cs : List Char) : Except JsonFault JsonValue :=
  match readValue room (skipGap cs) with
  | .error fault => .error fault
  | .ok part => if (skipGap part.rest).isEmpty then .ok part.value else .error .malformed

/-- **The member of an object with a given key**; of several the last one counts. -/
def member? (key : String) (members : List (Option String × JsonValue)) : Option JsonValue :=
  (members.reverse.find? (·.1 == some key)).map (·.2)

end JsonValue

end Reckoner
