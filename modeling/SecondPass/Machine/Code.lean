/-!
# Code numbers of the machine

Opcodes, relocation tags and addressing modes each have a code number, and opcodes have a mnemonic
besides. A look-up by number or by mnemonic that finds nothing fails with a `LookupError`.
-/

namespace SecondPass

/-- The vocabularies of the machine whose members are numbered. -/
inductive Vocabulary where
  | opcode
  | era
  | addressingMode
  deriving DecidableEq, Repr

/-- The name under which a vocabulary appears in messages. -/
def Vocabulary.title : Vocabulary → String
  | .opcode => "Opcode"
  | .era => "Era"
  | .addressingMode => "AddressingMode"

/-- Why a mnemonic or a code number stands for nothing. -/
inductive LookupError where
  | unknownMnemonic (name : String)
  | unknownCode (vocabulary : Vocabulary) (code : Nat)
  deriving DecidableEq, Repr

/-- The wording of a failed look-up. -/
def LookupError.message : LookupError → String
  | .unknownMnemonic _ => "Matching variant not found"
  | .unknownCode vocabulary code =>
    "No discriminant in enum `" ++ vocabulary.title ++ "` matches the value `" ++ toString code ++ "`"

end SecondPass
