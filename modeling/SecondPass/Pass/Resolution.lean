import SecondPass.Source.Name
import SecondPass.Source.Operand
import SecondPass.Symbols.Table

/-!
# Resolution of operands

A label operand resolves to the address of its label in a final table, and a register operand
resolves when the machine has that register. All other operands resolve as they are.
-/

namespace SecondPass

/-- An operand after an attempt to resolve it. -/
structure Resolution where
  operand : Operand
  /-- Whether the attempt succeeded. -/
  ok : Bool
  deriving DecidableEq, Repr

/-- Reports that a label is defined nowhere. A name that is no legal label has been complained
about before and is passed over. -/
def reportMissing (name : String) (config : Config) (line : Nat) : Logged Unit :=
  if isLegalLabel name config then report (some line) (.noSuchLabel name) else pure ()

/-- Resolves the label of an operand; `build` puts the label back. A label that is not in the table
stays as it was. -/
def LabelRef.resolve (label : LabelRef) (build : LabelRef → Operand)
    (symbols : SymbolTable .final) (config : Config) (line : Nat) : Logged Resolution :=
  match symbols.address? label.name with
  | some address => pure ⟨build { label with resolved := some address }, true⟩
  | none => do
    reportMissing label.name config line
    return ⟨build label, false⟩

/-- Resolves an operand found on a line. -/
def Operand.resolve (operand : Operand) (symbols : SymbolTable .final) (config : Config)
    (line : Nat) : Logged Resolution :=
  match operand with
  | .absent => pure ⟨operand, true⟩
  | .immediate _ => pure ⟨operand, true⟩
  | .direct label => label.resolve .direct symbols config line
  | .indexed label index => label.resolve (.indexed · index) symbols config line
  | .register number =>
    if number < config.usableRegisters then pure ⟨operand, true⟩
    else do
      report (some line) (.noSuchRegister number)
      return ⟨operand, false⟩

end SecondPass
