import Reckoner.Unicode.Ranges

/-!
# Blanks and invisible characters

Blanks separate words and are trimmed from the ends of a text. Besides the spaces of all scripts
they include the line and paragraph separators and the four information separators of ASCII.
Format characters – zero-width spaces, direction marks, the byte order mark – are not blanks: they
are invisible, and a typed line is read as if they were not there.
-/

namespace Reckoner.Unicode

/-- The ranges of blanks. -/
def blankRanges : Ranges := [
  (0x9, 0xD), (0x1C, 0x20), (0x85, 0x85), (0xA0, 0xA0), (0x1680, 0x1680), (0x2000, 0x200A),
  (0x2028, 0x2029), (0x202F, 0x202F), (0x205F, 0x205F), (0x3000, 0x3000)]

/-- The ranges of format characters. -/
def formatRanges : Ranges := [
  (0xAD, 0xAD), (0x600, 0x605), (0x61C, 0x61C), (0x6DD, 0x6DD), (0x70F, 0x70F), (0x890, 0x891),
  (0x8E2, 0x8E2), (0x180E, 0x180E), (0x200B, 0x200F), (0x202A, 0x202E), (0x2060, 0x2064),
  (0x2066, 0x206F), (0xFEFF, 0xFEFF), (0xFFF9, 0xFFFB), (0x110BD, 0x110BD), (0x110CD, 0x110CD),
  (0x13430, 0x13438), (0x1BCA0, 0x1BCA3), (0x1D173, 0x1D17A), (0xE0001, 0xE0001),
  (0xE0020, 0xE007F)]

/-- **Whether a character is a blank.** -/
def isBlank (c : Char) : Bool := blankRanges.hasChar c

/-- **Whether a character is an invisible format character.** -/
def isFormat (c : Char) : Bool := formatRanges.hasChar c

/-- The characters from the first one on that is no blank. -/
def trimStart (cs : List Char) : List Char := cs.dropWhile isBlank

/-- **A text without the blanks at its ends.** -/
def trim (cs : List Char) : List Char := ((trimStart cs).reverse.dropWhile isBlank).reverse

/-- Whether a text has nothing but blanks. -/
def isBlankText (cs : List Char) : Bool := cs.all isBlank

/-- **The first word of a text and what follows the blanks after it.** A text of blanks has no first
word; what follows is nothing if no word does. -/
def firstWord? (cs : List Char) : Option (List Char × List Char) :=
  match trimStart cs with
  | [] => none
  | c :: rest =>
    let text := c :: rest
    some (text.takeWhile (!isBlank ·), trimStart (text.dropWhile (!isBlank ·)))

end Reckoner.Unicode
