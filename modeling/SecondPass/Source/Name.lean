import SecondPass.Machine.Config
import SecondPass.Machine.Opcode
import SecondPass.Text.Blank

/-!
# Names in source text

A register is named by the letter `r` and one digit. A label is a letter followed by letters and
digits, not too long, and neither the name of a register nor a mnemonic. `checkLabel` reports the
first of these rules that a name breaks. Letters and digits are those of ASCII.
-/

namespace SecondPass

/-! ## Registers -/

/-- The number of the register that a text names, among the first `count` registers. No more than
`registerLimit` registers can be named. -/
def registerOfName? (text : String) (count : Nat) : Option Nat :=
  match text.toList with
  | ['r', digit] =>
    let number := digit.toNat - '0'.toNat
    if digit.isDigit ∧ number < min count registerLimit then some number else none
  | _ => none

/-! ## Labels -/

/-- The rule of label names that a name breaks. -/
inductive LabelError where
  | tooLong (max : Nat)
  | empty
  | leadingBlank
  | notAlphanumeric (name : String)
  | notLetterInitial (name : String)
  | registerName (name : String)
  | mnemonicName (name : String)
  deriving DecidableEq, Repr

/-- The wording of a broken rule. -/
def LabelError.message : LabelError → String
  | tooLong max => "Label is too long. Max label name length is " ++ toString max ++ "."
  | empty => "Label name is empty."
  | leadingBlank => "Label must start at the start of the line."
  | notAlphanumeric name => "\"" ++ name ++ "\" is illegal label - use letters and numbers only."
  | notLetterInitial name => "\"" ++ name ++ "\" is illegal label - first char must be a letter."
  | registerName name =>
    "\"" ++ name ++ "\" is illegal label - don't use a name of a register."
  | mnemonicName name => "\"" ++ name ++ "\" is illegal label - don't use a name of a command."

/-- Checks a name against the rules for labels, in the order length in bytes, emptiness, blank at
the start, letters and digits after the first character, letter at the start, no register, no
mnemonic. -/
def checkLabel (name : String) (config : Config) : Except LabelError Unit :=
  if config.maxLabelLength < name.utf8ByteSize then .error (.tooLong config.maxLabelLength)
  else
    match name.toList with
    | [] => .error .empty
    | first :: body =>
      if Text.isBlank first then .error .leadingBlank
      else if !body.all Char.isAlphanum then .error (.notAlphanumeric name)
      else if !first.isAlpha then .error (.notLetterInitial name)
      else if (registerOfName? name config.usableRegisters).isSome then .error (.registerName name)
      else if Opcode.isMnemonic name then .error (.mnemonicName name)
      else .ok ()

/-- Whether a name keeps all rules for labels. -/
def isLegalLabel (name : String) (config : Config) : Bool := (checkLabel name config).isOk

end SecondPass
