import SecondPass.Image
import SecondPass.Pass.Resolution
import SecondPass.Source.Line

/-!
# Encoding of lines

A line becomes one instruction word and the words of its operands:

    two registers   one word for both
    immediate       the value, absolute
    direct          the address, relocatable or external
    indexed         the address as for direct, then the offset, absolute
    register        the register in its own half, absolute

How many words a line takes depends on the shape of its operands only, never on whether they
resolve, so a line with a fault leaves later lines where they are.
-/

namespace SecondPass

/-! ## Words of operands -/

/-- The tag of the word of an operand. -/
def Operand.era (operand : Operand) : Era :=
  match operand.label? with
  | some label => if label.isExternal then .external else .relocatable
  | none => .absolute

/-- The word that holds an operand. A register stands in the half of its position. -/
def Operand.word (operand : Operand) (position : Position) : Word :=
  match operand, position with
  | .absent, _ => .zero
  | .immediate value, _ => .ofValue .absolute value
  | .direct label, _ => .ofValue operand.era (Int32.ofNat label.value)
  | .indexed label _, _ => .ofValue operand.era (Int32.ofNat label.value)
  | .register number, .source => .registers (some number) none
  | .register number, .dest => .registers none (some number)

/-- The words of an operand that does not share its word. -/
def Operand.words (operand : Operand) (position : Position) : List Word :=
  match operand with
  | .absent => []
  | .indexed _ index => [operand.word position, .index index]
  | _ => [operand.word position]

/-! ## Emission -/

/-- A slot and the image after the words of the slot were offered. -/
structure SlotEmission where
  slot : Slot
  image : Image
  deriving DecidableEq, Repr

/-- Emits the words of an operand and remembers where they start. -/
def Slot.emit (slot : Slot) (position : Position) (image : Image) : Logged SlotEmission :=
  if slot.operand.isPresent then do
    let after ← image.emitAll (slot.operand.words position)
    return ⟨{ slot with emittedAt := some image.nextAddress }, after⟩
  else pure ⟨slot, image⟩

/-- Both slots of a line and the image after their words were offered. -/
structure PairEmission where
  source : Slot
  dest : Slot
  image : Image
  deriving DecidableEq, Repr

/-- Emits the words of both operands, the source first. Two registers share one word. -/
def emitOperands (source dest : Slot) (image : Image) : Logged PairEmission :=
  match source.operand.register?, dest.operand.register? with
  | some sourceRegister, some destRegister => do
    let after ← image.emit (.registers (some sourceRegister) (some destRegister))
    return ⟨source, dest, after⟩
  | _, _ => do
    let first ← source.emit .source image
    let second ← dest.emit .dest first.image
    return ⟨first.slot, second.slot, second.image⟩

/-! ## Lines -/

/-- A line and the image after the line was encoded. -/
structure LineEncoding where
  line : Line
  image : Image
  /-- Whether no fault was found now. -/
  ok : Bool
  deriving DecidableEq, Repr

/-- Encodes a line with an instruction in which no fault was found before. Both operands are
resolved before any word is emitted, and a line with an operand that does not resolve is flagged. -/
def Line.encodeAs (line : Line) (opcode : Opcode) (symbols : SymbolTable .final)
    (config : Config) (image : Image) : Logged LineEncoding := do
  let source ← line.source.operand.resolve symbols config line.number
  let dest ← line.dest.operand.resolve symbols config line.number
  note (.encoding line.number (Text.trim line.text))
  let head ← image.emit (.instruction opcode source.operand.modeCode dest.operand.modeCode)
  let emission ← emitOperands { line.source with operand := source.operand }
    { line.dest with operand := dest.operand } head
  let ok := source.ok && dest.ok
  return {
    line := { line with source := emission.source, dest := emission.dest, flagged := !ok }
    image := emission.image
    ok := ok }

/-- Encodes a line. Flagged lines and lines without an instruction make no words. -/
def Line.encode (line : Line) (symbols : SymbolTable .final) (config : Config) (image : Image) :
    Logged LineEncoding :=
  match line.opcode?, line.flagged with
  | some opcode, false => line.encodeAs opcode symbols config image
  | _, _ => pure ⟨line, image, true⟩

/-- Lines and the image after the lines were encoded. -/
structure CodeEncoding where
  lines : List Line
  image : Image
  /-- How many lines failed. -/
  failures : Nat
  deriving DecidableEq, Repr

/-- Encodes lines one after the other. -/
def encodeLines (symbols : SymbolTable .final) (config : Config) :
    List Line → Image → Logged CodeEncoding
  | [], image => pure ⟨[], image, 0⟩
  | line :: rest, image => do
    let head ← line.encode symbols config image
    let tail ← encodeLines symbols config rest head.image
    return {
      lines := head.line :: tail.lines
      image := tail.image
      failures := (if head.ok then 0 else 1) + tail.failures }

/-! ## Lines that make words, and lines that do not -/

theorem Line.encode_eq_encodeAs {line : Line} {opcode : Opcode}
    (hopcode : line.opcode? = some opcode) (hflagged : line.flagged = false)
    (symbols : SymbolTable .final) (config : Config) (image : Image) :
    line.encode symbols config image = line.encodeAs opcode symbols config image := by
  simp [Line.encode, hopcode, hflagged]

theorem Line.encode_of_flagged {line : Line} (h : line.flagged = true)
    (symbols : SymbolTable .final) (config : Config) (image : Image) :
    line.encode symbols config image = pure ⟨line, image, true⟩ := by
  simp [Line.encode, h]

theorem Line.encode_of_opcode?_eq_none {line : Line} (h : line.opcode? = none)
    (symbols : SymbolTable .final) (config : Config) (image : Image) :
    line.encode symbols config image = pure ⟨line, image, true⟩ := by
  simp [Line.encode, h]

theorem Line.encode_of_not_isEncodable {line : Line} (hline : line.isEncodable = false)
    (symbols : SymbolTable .final) (config : Config) (image : Image) :
    line.encode symbols config image = pure ⟨line, image, true⟩ := by
  cases hopcode : line.opcode? with
  | none => exact encode_of_opcode?_eq_none hopcode symbols config image
  | some opcode =>
    refine encode_of_flagged ?_ symbols config image
    simpa [isEncodable, hopcode] using hline

end SecondPass
