import SecondPass.Machine.Opcode
import SecondPass.Source.Operand

/-!
# Source lines

What a first reading of the source leaves behind: lines with their opcode and operands, and the
labels that the module exports.
-/

namespace SecondPass

/-- An operand in its place on a line, with the address of the word that holds it. The address says
where the operand is, not what it refers to. -/
structure Slot where
  operand : Operand := .absent
  emittedAt : Option Nat := none
  deriving DecidableEq, Repr

/-- A line of source text. -/
structure Line where
  number : Nat
  text : String
  /-- Missing on directives, comments and blank lines. -/
  opcode? : Option Opcode := none
  source : Slot := {}
  dest : Slot := {}
  /-- Whether a fault has been found in the line. -/
  flagged : Bool := false
  deriving DecidableEq, Repr

namespace Line

/-- The operands in the order in which they are emitted. -/
def slots (line : Line) : List Slot := [line.source, line.dest]

/-- Whether a line makes machine words: it has an instruction, and no fault was found in it. -/
def isEncodable (line : Line) : Bool := line.opcode?.isSome && !line.flagged

end Line

/-- A line that asks for a label to be exported. -/
structure Entry where
  line : Nat
  name : String
  deriving DecidableEq, Repr

end SecondPass
