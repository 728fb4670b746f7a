import SecondPass.Machine.Code
import SecondPass.Symbols.Address

/-!
# Operands

An operand of an instruction is a number, a label, a label with an index or a register, or it is
not there at all. A label operand carries the address that its label resolved to, once it has.
-/

namespace SecondPass

/-! ## Addressing modes -/

/-- How an instruction reaches an operand. -/
inductive AddressingMode where
  | immediate
  | direct
  | indexed
  | register
  deriving DecidableEq, Repr

namespace AddressingMode

/-- All modes, in the order of their numbers. -/
def all : List AddressingMode := [immediate, direct, indexed, register]

/-- The number of a mode in an instruction word. -/
def code : AddressingMode → Nat
  | immediate => 0
  | direct => 1
  | indexed => 2
  | register => 3

/-- The mode with a given number. -/
def ofCode? (n : Nat) : Option AddressingMode := all[n]?

/-- The mode with a given number, or the reason why there is none. -/
def ofCode (n : Nat) : Except LookupError AddressingMode :=
  match ofCode? n with
  | some mode => .ok mode
  | none => .error (.unknownCode .addressingMode n)

end AddressingMode

/-! ## Labels in operands -/

/-- A use of a label, with the address that the label resolved to. -/
structure LabelRef where
  name : String
  resolved : Option Address := none
  deriving DecidableEq, Repr

namespace LabelRef

/-- The number of the resolved address, zero before there is one. -/
def value (label : LabelRef) : Nat :=
  match label.resolved with
  | some address => address.number
  | none => 0

/-- Whether the label resolved to a label of another module. -/
def isExternal (label : LabelRef) : Bool :=
  match label.resolved with
  | some address => address.isExternal
  | none => false

end LabelRef

/-! ## Operands -/

/-- An operand of an instruction. -/
inductive Operand where
  /-- There is no operand. -/
  | absent
  /-- A number, written `#value`. -/
  | immediate (value : Int32)
  /-- A label, written `name`. -/
  | direct (label : LabelRef)
  /-- A label with an offset, written `name[index]`. -/
  | indexed (label : LabelRef) (index : Int32)
  /-- A register, written `rN`. -/
  | register (number : Nat)
  deriving DecidableEq, Repr

/-- The place of an operand in its instruction. -/
inductive Position where
  | source
  | dest
  deriving DecidableEq, Repr

namespace Operand

/-- The addressing mode of an operand that is there. -/
def mode? : Operand → Option AddressingMode
  | absent => none
  | immediate _ => some .immediate
  | direct _ => some .direct
  | indexed _ _ => some .indexed
  | register _ => some .register

/-- The number of the mode in an instruction word, zero for a missing operand. -/
def modeCode (operand : Operand) : Nat :=
  match operand.mode? with
  | some mode => mode.code
  | none => 0

/-- Whether there is an operand. -/
def isPresent : Operand → Bool
  | absent => false
  | _ => true

/-- The register that an operand names. -/
def register? : Operand → Option Nat
  | register number => some number
  | _ => none

/-- The label that an operand uses. -/
def label? : Operand → Option LabelRef
  | direct label => some label
  | indexed label _ => some label
  | _ => none

/-- How an operand is written in source text. -/
def text : Operand → String
  | absent => ""
  | immediate value => "#" ++ toString value.toInt
  | direct label => label.name
  | indexed label index => label.name ++ "[" ++ toString index.toInt ++ "]"
  | register number => "r" ++ toString number

end Operand

end SecondPass
