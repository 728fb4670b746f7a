import SecondPass.Machine.Opcode

/-!
# Machine words

A word has fourteen bits. The low two are its relocation tag and the other twelve its payload; what
the payload means depends on the part that the word plays:

    instruction   unused 4, opcode 4, source mode 2, destination mode 2
    operand       value 12
    registers     unused 6, source register 3, destination register 3
    index         offset 12

A value too wide for its field loses its high bits, so negative numbers are in two's complement.
Words are appends of their fields, and reading a field back is a cut of the same append.
-/

namespace SecondPass

/-! ## Relocation tags -/

/-- The relocation tag of a word. -/
inductive Era where
  /-- The payload is final. -/
  | absolute
  /-- The payload is an address in another module, to be filled in when modules are linked. -/
  | external
  /-- The payload is a local address, which moves with the module. -/
  | relocatable
  deriving DecidableEq, Repr

namespace Era

/-- All tags, in the order of their numbers. -/
def all : List Era := [absolute, external, relocatable]

/-- The number of a tag. -/
def code : Era → Nat
  | absolute => 0
  | external => 1
  | relocatable => 2

/-- The tag with a given number; the fourth pattern of two bits is no tag. -/
def ofCode? (n : Nat) : Option Era := all[n]?

/-- The tag with a given number, or the reason why there is none. -/
def ofCode (n : Nat) : Except LookupError Era :=
  match ofCode? n with
  | some era => .ok era
  | none => .error (.unknownCode .era n)

/-- The two bits that mark a word with a tag. -/
def tag (era : Era) : BitVec 2 := BitVec.ofNat 2 era.code

@[simp] theorem ofCode?_code (era : Era) : ofCode? era.code = some era := by cases era <;> rfl

@[simp] theorem toNat_tag (era : Era) : era.tag.toNat = era.code := by cases era <;> rfl

end Era

/-! ## Words -/

/-- A word of the machine. -/
structure Word where
  bits : BitVec 14
  deriving DecidableEq, Repr

namespace Word

instance : Inhabited Word := ⟨⟨0⟩⟩

/-- The word whose bits are all zero. -/
def zero : Word := ⟨0⟩

/-- A word made of a payload and a tag. -/
def tagged (era : Era) (payload : BitVec 12) : Word := ⟨payload ++ era.tag⟩

/-- A tagged word whose payload is the low twelve bits of a value. -/
def ofValue (era : Era) (value : Int32) : Word := tagged era (value.toBitVec.setWidth 12)

/-- A word of data: the low fourteen bits of a value, those in the place of the tag included. -/
def data (value : Int32) : Word := ⟨value.toBitVec.setWidth 14⟩

/-- The first word of an instruction. -/
def instruction (opcode : Opcode) (sourceMode destMode : Nat) : Word :=
  tagged .absolute
    (0#4 ++ BitVec.ofNat 4 opcode.code ++ BitVec.ofNat 2 sourceMode ++ BitVec.ofNat 2 destMode)

/-- A word that names up to two registers; the half of a missing register is zero. -/
def registers (source dest : Option Nat) : Word :=
  tagged .absolute (0#6 ++ BitVec.ofNat 3 (source.getD 0) ++ BitVec.ofNat 3 (dest.getD 0))

/-- The word that holds the offset of an indexed operand. -/
def index (offset : Int32) : Word := ofValue .absolute offset

/-- A word as a number below `2 ^ 14`. -/
def value (w : Word) : Nat := w.bits.toNat

/-- The tag of a word, if its low two bits are one. -/
def era? (w : Word) : Option Era := Era.ofCode? (w.bits.extractLsb' 0 2).toNat

/-- The twelve bits above the tag, as a number. -/
def payload (w : Word) : Nat := (w.bits.extractLsb' 2 12).toNat

/-- A word as fourteen binary digits, the highest first. -/
def binary (w : Word) : String :=
  String.ofList ((List.range 14).map fun i => if w.bits.getMsbD i then '1' else '0')

end Word

/-! ## Fields -/

/-- The fields of an instruction word. -/
structure InstructionFields where
  opcode : Opcode
  sourceMode : Nat
  destMode : Nat
  deriving DecidableEq, Repr

/-- The fields of a register word. -/
structure RegisterFields where
  source : Nat
  dest : Nat
  deriving DecidableEq, Repr

namespace Word

/-- Reads a word as an instruction, which it can be only if its tag is absolute. -/
def instruction? (w : Word) : Option InstructionFields :=
  match w.era?, Opcode.ofCode? (w.bits.extractLsb' 6 4).toNat with
  | some .absolute, some opcode =>
    some ⟨opcode, (w.bits.extractLsb' 4 2).toNat, (w.bits.extractLsb' 2 2).toNat⟩
  | _, _ => none

/-- Reads a word as a pair of registers. -/
def registerFields (w : Word) : RegisterFields :=
  ⟨(w.bits.extractLsb' 5 3).toNat, (w.bits.extractLsb' 2 3).toNat⟩

/-! ## Reading back -/

/-- A word lies below `2 ^ 14`. -/
theorem value_lt (w : Word) : w.value < 16384 := w.bits.isLt

private theorem tag_tagged (era : Era) (p : BitVec 12) :
    (tagged era p).bits.extractLsb' 0 2 = era.tag := by
  ext i hi
  simp [tagged]
  grind

private theorem payload_bits_tagged (era : Era) (p : BitVec 12) :
    (tagged era p).bits.extractLsb' 2 12 = p := by
  ext i hi
  simp [tagged]
  grind

@[simp] theorem era?_tagged (era : Era) (p : BitVec 12) : (tagged era p).era? = some era := by
  simp [era?, tag_tagged]

@[simp] theorem payload_tagged (era : Era) (p : BitVec 12) :
    (tagged era p).payload = p.toNat := by
  simp [payload, payload_bits_tagged]

@[simp] theorem era?_ofValue (era : Era) (v : Int32) : (ofValue era v).era? = some era :=
  era?_tagged era _

end Word

end SecondPass
