import Mathlib.Data.List.Chain
import Reckoner.Proofs.Grammar.Phrase

/-!
# Which tokens stand side by side

A phrase puts its tokens side by side in few ways. Where an operand is over, only a unit, an
operator or a closing parenthesis can come next (`Phrase.isChain_neighbour`): two operands are never
neighbours, and none is the neighbour of a function or an opening parenthesis on its right. And
a function has an opening parenthesis with it (`Phrase.exists_opening_of_function`).
-/

namespace Reckoner

/-- **Whether an operand may be over** behind a lexeme. -/
def Lexeme.endsOperand : Lexeme → Bool
  | .number _ | .answer | .variable _ | .unit _ | .closing => true
  | _ => false

/-- **Whether a lexeme may stand where an operand is over.** -/
def Lexeme.goesOn : Lexeme → Bool
  | .unit _ | .operator _ | .closing => true
  | _ => false

/-- **A neighbour on the right** of a token: behind an operand, one that may stand there. -/
def Neighbour (token next : Token) : Prop :=
  token.lexeme.endsOperand = true → next.lexeme.goesOn = true

namespace Neighbour

variable {tokens rest : List Token} {token : Token}

/-- What may stand where an operand is over may stand behind all tokens. -/
theorem isChain_append (h : tokens.IsChain Neighbour) (hrest : rest.IsChain Neighbour)
    (hnext : ∀ next ∈ rest.head?, next.lexeme.goesOn = true) :
    (tokens ++ rest).IsChain Neighbour :=
  List.isChain_append.mpr ⟨h, hrest, fun _ _ next hmem _ => hnext next hmem⟩

/-- Behind a token where no operand is over, all tokens may stand. -/
theorem isChain_cons (h : tokens.IsChain Neighbour) (htoken : token.lexeme.endsOperand = false) :
    (token :: tokens).IsChain Neighbour :=
  List.isChain_cons.mpr ⟨fun _ _ hends => absurd (htoken.symm.trans hends) Bool.false_ne_true, h⟩

end Neighbour

namespace Phrase

open Neighbour (isChain_append isChain_cons)

variable {c : Category}

/-- A tail begins where an operand is over. -/
theorem goesOn_of_head?_sumTail (tail : Phrase .sumTail) :
    ∀ next ∈ tail.tokens.head?, next.lexeme.goesOn = true := by
  cases tail with
  | sumEnd => nofun
  | sumStep token op lexeme_eq additive term tail =>
    rintro _ ⟨⟩
    rw [lexeme_eq]
    rfl

theorem goesOn_of_head?_productTail (tail : Phrase .productTail) :
    ∀ next ∈ tail.tokens.head?, next.lexeme.goesOn = true := by
  cases tail with
  | productEnd => nofun
  | productStep token op lexeme_eq multiplicative factor tail =>
    rintro _ ⟨⟩
    rw [lexeme_eq]
    rfl

/-- **Behind an operand** stands a unit, an operator or a closing parenthesis, or nothing. -/
theorem isChain_neighbour (d : Phrase c) : d.tokens.IsChain Neighbour := by
  induction d with
  | sum first tail ihFirst ihTail =>
    exact isChain_append ihFirst ihTail tail.goesOn_of_head?_sumTail
  | sumEnd => exact .nil
  | sumStep token op lexeme_eq additive term tail ihTerm ihTail =>
    exact isChain_cons (isChain_append ihTerm ihTail tail.goesOn_of_head?_sumTail)
      (by rw [lexeme_eq]; rfl)
  | product first tail ihFirst ihTail =>
    exact isChain_append ihFirst ihTail tail.goesOn_of_head?_productTail
  | productEnd => exact .nil
  | productStep token op lexeme_eq multiplicative factor tail ihFactor ihTail =>
    exact isChain_cons (isChain_append ihFactor ihTail tail.goesOn_of_head?_productTail)
      (by rw [lexeme_eq]; rfl)
  | plain base ih => exact ih
  | raised base token lexeme_eq exponent ihBase ihExponent =>
    refine isChain_append ihBase (isChain_cons ihExponent (by rw [lexeme_eq]; rfl)) ?_
    rintro _ ⟨⟩
    rw [lexeme_eq]
    rfl
  | minus token lexeme_eq rest ih => exact isChain_cons ih (by rw [lexeme_eq]; rfl)
  | plus token lexeme_eq rest ih => exact isChain_cons ih (by rw [lexeme_eq]; rfl)
  | unsigned operand ih => exact ih
  | bare atom ih => exact ih
  | inUnit atom token u lexeme_eq ih =>
    refine isChain_append ih (.singleton _) ?_
    rintro _ ⟨⟩
    rw [lexeme_eq]
    rfl
  | number token numeral lexeme_eq => exact .singleton _
  | answer token lexeme_eq => exact .singleton _
  | named token name lexeme_eq => exact .singleton _
  | call token f lexeme_eq opening opens argument closing closes ih =>
    refine isChain_cons (isChain_cons (isChain_append ih (.singleton _) ?_)
      (by rw [opens]; rfl)) (by rw [lexeme_eq]; rfl)
    rintro _ ⟨⟩
    rw [closes]
    rfl
  | group opening opens inner closing closes ih =>
    refine isChain_cons (isChain_append ih (.singleton _) ?_) (by rw [opens]; rfl)
    rintro _ ⟨⟩
    rw [closes]
    rfl

/-- **A function** has an opening parenthesis with it. -/
theorem exists_opening_of_function (d : Phrase c) {token : Token} {f : Builtin}
    (hmem : token ∈ d.tokens) (h : token.lexeme = .function f) :
    ∃ opening ∈ d.tokens, opening.lexeme = .opening := by
  induction d <;> grind [Phrase.tokens]

end Phrase

end Reckoner
