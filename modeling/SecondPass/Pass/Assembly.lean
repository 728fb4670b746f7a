import SecondPass.Pass.Encoding
import SecondPass.Pass.Export

/-!
# Assembly

`assemble` turns what a first pass found into a memory image: it makes the symbol table final, checks
the entries, encodes the lines and appends the data. It never stops at a fault, so one run reports
everything that is wrong, and a program is sound when its error count is zero.
-/

namespace SecondPass

/-- What a first pass found. -/
structure FirstPass where
  symbols : SymbolTable .pending
  lines : List Line
  /-- The final value of the instruction counter. It counts from the first load address, so it is
  also the address of the data segment. -/
  instructionCount : Nat
  data : List Int32
  /-- How many of the values make up the data segment. -/
  dataCount : Nat
  entries : List Entry

/-- An assembled program. -/
structure Assembly where
  image : Image
  symbols : SymbolTable .final
  lines : List Line
  entries : List Entry
  errorCount : Nat

/-- The external label that a slot uses, with the address of the word that uses it. -/
def Slot.externalReference? (slot : Slot) : Option (String × Nat) :=
  match slot.operand.label?, slot.emittedAt with
  | some label, some address => if label.isExternal then some (label.name, address) else none
  | _, _ => none

namespace Assembly

/-- Whether the image may be used. -/
def isOk (assembly : Assembly) : Bool := assembly.errorCount == 0

/-- Every use of an external label with the address of the word that uses it, in the order of the
lines. -/
def externalReferences (assembly : Assembly) : List (String × Nat) :=
  (assembly.lines.flatMap Line.slots).filterMap Slot.externalReference?

/-- Every exported label with its address. -/
def entryExports (assembly : Assembly) : List (String × Nat) :=
  exports assembly.symbols assembly.entries

end Assembly

/-- Tells of words that did not fit, and counts that as an error unless they are dropped in
silence. -/
def reportOverflow (overflow : OverflowPolicy) (image : Image) : Logged Nat :=
  if image.dropped = 0 then pure 0
  else
    match overflow with
    | .reject => do
      report none (.tooLarge image.capacity image.dropped)
      return 1
    | .truncate => do
      note (.truncated image.dropped)
      return 0

/-- Assembles a program. The error count is the number of illegal entries, plus the number of lines
that failed, plus one for a program that was refused as too large. -/
def assemble (program : FirstPass) (config : Config) : Logged Assembly := do
  let symbols ← program.symbols.finalize program.instructionCount
  let illegal ← checkEntries symbols program.entries
  let code ← encodeLines symbols config program.lines (Image.new config)
  let image ← code.image.appendData program.data program.dataCount
  let refused ← reportOverflow config.overflow image
  let errorCount := illegal + code.failures + refused
  note (.completed code.image.size (image.size - code.image.size) errorCount)
  return {
    image := image
    symbols := symbols
    lines := code.lines
    entries := program.entries
    errorCount := errorCount }

end SecondPass
