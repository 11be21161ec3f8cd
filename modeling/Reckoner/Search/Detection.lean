import Reckoner.Unicode.Blank
import Reckoner.Unicode.Case
import Reckoner.Unicode.Numeral
import Reckoner.Vocabulary

/-!
# Telling calculations from searches

The search bar holds two kinds of text: names of items and calculations. A text is taken for a
calculation if it shows a mark of one – an operator, a parenthesis, the word `ans` or a name after
a dollar sign, or a number with a unit that nothing else follows – unless it holds a word that item
names are made of and no operator at all. A number alone is still a search.

A calculation is shown live only once it is complete: while it ends in an operator, or a parenthesis
is open, the user is still typing.

Letter case is ignored in all words, and the letters that `Unicode.foldChar` names count as the
ASCII letters they stand for.
-/

namespace Reckoner.Search

open Unicode

/-- A text in which words are looked for: each character replaced by the letter it counts as. -/
def fold (text : List Char) : List Char := text.map foldChar

/-- Whether a word occurs in a text. -/
def occursIn (word : List Char) : List Char → Bool
  | [] => word.isEmpty
  | c :: cs => word.isPrefixOf (c :: cs) || occursIn word cs

/-- Whether a text satisfies `p` at some place. -/
def anywhere (p : List Char → Bool) : List Char → Bool
  | [] => p []
  | c :: cs => p (c :: cs) || anywhere p cs

/-- The words that item names are made of. -/
def itemWords : List String :=
  ["sword", "pickaxe", "axe", "shovel", "hoe", "helmet", "chestplate", "leggings", "boots",
    "diamond", "iron", "gold", "stone", "wood", "bow", "arrow", "block", "ore", "ingot", "coal",
    "redstone", "lapis", "emerald", "netherite", "pearl", "eye", "blaze", "slime", "magma",
    "prismarine", "quartz", "obsidian", "glowstone", "hopper", "chest", "furnace", "crafting",
    "enchant", "potion", "book", "bed"]

/-- Whether a word of item names occurs in a text. -/
def namesItem (text : List Char) : Bool :=
  itemWords.any fun word => occursIn word.toList (fold text)

/-- Whether a character is an operator. -/
def isOperator (c : Char) : Bool := (Operator.ofChar? c).isSome

/-- Whether a character is a parenthesis. -/
def isParenthesis (c : Char) : Bool := c == '(' || c == ')'

/-- Whether a text is a number and nothing else: digits, a point if there is one, and digits. -/
def isNumberOnly (text : List Char) : Bool :=
  let rest := text.dropWhile isDecimal
  !(text.takeWhile isDecimal).isEmpty &&
    (match rest with
      | '.' :: places => places.all isDecimal
      | rest => rest.isEmpty)

/-- Whether a text refers to the last answer or a variable at some place. -/
def refersToVariable (text : List Char) : Bool :=
  occursIn "ans".toList (fold text) ||
    anywhere (fun cs => match cs with
      | '$' :: c :: _ => isWordChar c
      | _ => false) text

/-- Whether a unit may end where these characters begin. -/
def endsUnit : List Char → Bool
  | [] => true
  | c :: _ => isBlank c || isOperator c || isParenthesis c

/-- Whether a text begins with a word. -/
def beginsWith (word text : List Char) : Bool := fold (text.take word.length) == word

/-- Whether a text begins with a unit that ends there. -/
def beginsWithUnit (text : List Char) : Bool :=
  UnitSuffix.all.any fun u =>
    beginsWith u.text.toList text && endsUnit (text.drop u.text.length)

/-- Whether a text has a number with a unit at some place. Blanks may stand between the two. -/
def hasUnit (text : List Char) : Bool :=
  anywhere (fun cs => match cs with
    | c :: rest => isDecimal c && beginsWithUnit (trimStart rest)
    | [] => false) text

/-- **Whether a text looks like a calculation.** -/
def looksLikeCalculation (text : List Char) : Bool :=
  let trimmed := trim text
  let hasOperator := trimmed.any isOperator
  if trimmed.isEmpty || isNumberOnly trimmed then false
  else if namesItem trimmed && !hasOperator then false
  else hasOperator || trimmed.any isParenthesis || refersToVariable trimmed || hasUnit trimmed

/-- Whether the last character of a text is an operator. -/
def endsInOperator (text : List Char) : Bool := text.getLast?.any isOperator

/-- The number of open parentheses after a text that starts with `depth` of them, or nothing if one
is closed that was not open. -/
def openDepth? (depth : Nat) : List Char → Option Nat
  | [] => some depth
  | c :: cs =>
    if c = '(' then openDepth? (depth + 1) cs
    else if c = ')' then (if depth = 0 then none else openDepth? (depth - 1) cs)
    else openDepth? depth cs

/-- Whether a text begins with the name of a function and an opening parenthesis, and has no closing
one after it. -/
def beginsOpenCall (text : List Char) : Bool :=
  Builtin.all.any fun f =>
    beginsWith f.text.toList text &&
      (match trimStart (text.drop f.text.length) with
        | '(' :: inside => !inside.contains ')'
        | _ => false)

/-- **Whether a text is complete** as a calculation: it is not blank, does not end in an operator,
its parentheses match, and no call of a function is open. -/
def isComplete (text : List Char) : Bool :=
  let trimmed := trim text
  !trimmed.isEmpty && !endsInOperator trimmed && openDepth? 0 trimmed == some 0 &&
    !anywhere beginsOpenCall trimmed

/-- **A text as it is evaluated**: without invisible characters, and then without blanks at its
ends. -/
def clean (text : List Char) : List Char := trim (text.filter fun c => !isFormat c)

end Reckoner.Search
