/-!
# Diagnostics

What can be wrong with a program, and how it is worded. A `Diagnostic` is a problem with the line
that it was found on.
-/

namespace SecondPass

/-- A word was offered to a full memory image. -/
structure ImageFull where
  capacity : Nat
  deriving DecidableEq, Repr

/-- The wording of a refused word. -/
def ImageFull.message (refusal : ImageFull) : String :=
  "memory image is full (" ++ toString refusal.capacity ++ " words)"

/-- Something wrong with a program. -/
inductive Problem where
  /-- An operand or an entry names a label that is nowhere defined. -/
  | noSuchLabel (name : String)
  /-- An operand names a register past the last one. -/
  | noSuchRegister (number : Nat)
  /-- An entry names a label of another module. -/
  | externalEntry (name : String)
  /-- Words did not fit the memory image. -/
  | tooLarge (capacity dropped : Nat)
  deriving DecidableEq, Repr

/-- The wording of a problem. -/
def Problem.message : Problem → String
  | noSuchLabel name => "No such label as \"" ++ name ++ "\"."
  | noSuchRegister number => "No such register as \"r" ++ toString number ++ "\"."
  | externalEntry _ => "The parameter for .entry can't be an external label."
  | tooLarge capacity dropped =>
    "The program does not fit in " ++ toString capacity ++ " words of memory; " ++
      toString dropped ++ " words were dropped."

/-- A problem and the line that it was found on; a problem of the whole program has no line. -/
structure Diagnostic where
  line : Option Nat
  problem : Problem
  deriving DecidableEq, Repr

/-- How a diagnostic is written. -/
def Diagnostic.text (diagnostic : Diagnostic) : String :=
  match diagnostic.line with
  | some line => "Error on line " ++ toString line ++ ": " ++ diagnostic.problem.message
  | none => "Error: " ++ diagnostic.problem.message

end SecondPass
