import SecondPass.Pass.Assembly

/-!
# Layout of a program

The words that a program ought to become, written down without an image: a line with an instruction
is its instruction word and the words of its operands, and the data come after the last line. A
`lookup` says where each name lives; `FirstPass.lookup` is the table of the first pass with the data
moved past the code. The size of a line depends on the shape of its operands only
(`length_layout`), so the place of every word is known before any name is looked up.
-/

namespace SecondPass

/-! ## Words of labels -/

/-- The word that holds an address: a local address moves with the module, an external one is left
to the linker. -/
def Address.word : Address → Word
  | .code n => .tagged .relocatable (BitVec.ofNat 12 n)
  | .data n => .tagged .relocatable (BitVec.ofNat 12 n)
  | .external n => .tagged .external (BitVec.ofNat 12 n)

/-- The word of a label. A name that lives nowhere keeps the address that the label came with, and
without one it counts as the local address zero. -/
def LabelRef.layout (lookup : String → Option Address) (label : LabelRef) : Word :=
  match lookup label.name, label.resolved with
  | some address, _ => address.word
  | none, some address => address.word
  | none, none => .tagged .relocatable 0

theorem LabelRef.layout_of_lookup {lookup : String → Option Address} {label : LabelRef}
    {address : Address} (h : lookup label.name = some address) :
    label.layout lookup = address.word := by
  simp only [layout, h]

/-! ## Words of operands and lines -/

/-- The words of an operand that does not share its word. -/
def Operand.layout (lookup : String → Option Address) (position : Position) : Operand → List Word
  | .absent => []
  | .immediate value => [.tagged .absolute (BitVec.ofInt 12 value.toInt)]
  | .direct label => [label.layout lookup]
  | .indexed label index =>
    [label.layout lookup, .tagged .absolute (BitVec.ofInt 12 index.toInt)]
  | .register number =>
    match position with
    | .source => [.registers (some number) none]
    | .dest => [.registers none (some number)]

/-- The words of both operands of an instruction; two registers share one. -/
def operandsLayout (lookup : String → Option Address) : Operand → Operand → List Word
  | .register source, .register dest => [.registers (some source) (some dest)]
  | source, dest => source.layout lookup .source ++ dest.layout lookup .dest

/-- The words of a line. Only a line with an instruction and without a fault has any. -/
def Line.layout (lookup : String → Option Address) (line : Line) : List Word :=
  match line.opcode?, line.flagged with
  | some opcode, false =>
    .instruction opcode line.source.operand.modeCode line.dest.operand.modeCode ::
      operandsLayout lookup line.source.operand line.dest.operand
  | _, _ => []

/-- The words of lines, one line after the other. -/
def codeLayout (lookup : String → Option Address) (lines : List Line) : List Word :=
  lines.flatMap (Line.layout lookup)

/-! ## Words of programs -/

namespace FirstPass

/-- Where a name lives once the data lie past the code; addresses have 64 bits. -/
def lookup (program : FirstPass) (name : String) : Option Address :=
  match program.symbols.address? name with
  | some (.data n) => some (.data ((n + program.instructionCount) % UInt64.size))
  | some address => some address
  | none => none

/-- The words of the data segment. -/
def dataLayout (program : FirstPass) : List Word :=
  (program.data.take program.dataCount).map Word.data

/-- The words of a program: the code, then the data. -/
def layout (program : FirstPass) : List Word :=
  codeLayout program.lookup program.lines ++ program.dataLayout

end FirstPass

/-! ## Fresh programs -/

/-- A slot is fresh when its label is unresolved and none of its words has gone anywhere. -/
def Slot.IsFresh (slot : Slot) : Prop :=
  slot.operand.label?.bind LabelRef.resolved = none ∧ slot.emittedAt = none

instance (slot : Slot) : Decidable slot.IsFresh := inferInstanceAs (Decidable (_ ∧ _))

/-- A program is fresh when all its slots are, as a first pass leaves them. -/
def FirstPass.IsFresh (program : FirstPass) : Prop :=
  ∀ line ∈ program.lines, line.source.IsFresh ∧ line.dest.IsFresh

instance (program : FirstPass) : Decidable program.IsFresh :=
  inferInstanceAs (Decidable (∀ line ∈ program.lines, _))

/-! ## Sizes -/

/-- The number of words of an operand that does not share its word. -/
def Operand.size : Operand → Nat
  | .absent => 0
  | .indexed _ _ => 2
  | _ => 1

namespace Line

/-- Whether both operands are registers, which then share a word. -/
def isRegisterPair (line : Line) : Bool :=
  line.source.operand.register?.isSome && line.dest.operand.register?.isSome

/-- The number of words of a line. -/
def size (line : Line) : Nat :=
  if line.isEncodable then
    if line.isRegisterPair then 2 else 1 + line.source.operand.size + line.dest.operand.size
  else 0

end Line

/-- The number of words of lines. -/
def codeSize : List Line → Nat
  | [] => 0
  | line :: rest => line.size + codeSize rest

@[simp] theorem codeSize_nil : codeSize [] = 0 := rfl

@[simp] theorem codeSize_cons (line : Line) (rest : List Line) :
    codeSize (line :: rest) = line.size + codeSize rest := rfl

theorem length_operand_layout (lookup : String → Option Address) (position : Position)
    (operand : Operand) : (operand.layout lookup position).length = operand.size := by
  cases operand <;> cases position <;> rfl

/-- A line that makes words has an opcode. -/
theorem Line.isEncodable_iff {line : Line} :
    line.isEncodable = true ↔ ∃ opcode, line.opcode? = some opcode ∧ line.flagged = false := by
  cases h : line.opcode? <;> simp [isEncodable, h]

theorem Line.layout_of_isEncodable {line : Line} {opcode : Opcode}
    (hopcode : line.opcode? = some opcode) (hflagged : line.flagged = false)
    (lookup : String → Option Address) :
    line.layout lookup =
      .instruction opcode line.source.operand.modeCode line.dest.operand.modeCode ::
        operandsLayout lookup line.source.operand line.dest.operand := by
  simp [layout, hopcode, hflagged]

theorem Line.layout_of_not_isEncodable {line : Line} (h : line.isEncodable = false)
    (lookup : String → Option Address) : line.layout lookup = [] := by
  unfold layout
  split
  · rename_i hopcode hflagged
    simp [isEncodable, hopcode, hflagged] at h
  · rfl

/-- Operands that are not two registers are laid out one after the other. -/
theorem operandsLayout_of_not_isRegisterPair {line : Line} (h : line.isRegisterPair = false)
    (lookup : String → Option Address) :
    operandsLayout lookup line.source.operand line.dest.operand =
      line.source.operand.layout lookup .source ++ line.dest.operand.layout lookup .dest := by
  unfold operandsLayout
  split
  · rename_i hsource hdest
    simp [Line.isRegisterPair, hsource, hdest, Operand.register?] at h
  · rfl

theorem Line.isRegisterPair_iff {line : Line} :
    line.isRegisterPair = true ↔
      ∃ source dest, line.source.operand = .register source ∧
        line.dest.operand = .register dest := by
  constructor
  · intro h
    cases hsource : line.source.operand <;> cases hdest : line.dest.operand <;>
      simp_all [isRegisterPair, Operand.register?]
  · rintro ⟨source, dest, hsource, hdest⟩
    simp [isRegisterPair, hsource, hdest, Operand.register?]

/-- Two registers share a word. -/
theorem operandsLayout_of_isRegisterPair {line : Line} (h : line.isRegisterPair = true)
    (lookup : String → Option Address) :
    ∃ source dest, operandsLayout lookup line.source.operand line.dest.operand =
      [.registers (some source) (some dest)] := by
  obtain ⟨source, dest, hsource, hdest⟩ := Line.isRegisterPair_iff.1 h
  exact ⟨source, dest, by rw [hsource, hdest, operandsLayout]⟩

/-- How many words a line has does not depend on where its labels live. -/
theorem Line.length_layout (lookup : String → Option Address) (line : Line) :
    (line.layout lookup).length = line.size := by
  cases hline : line.isEncodable with
  | false => simp [layout_of_not_isEncodable hline, size, hline]
  | true =>
    obtain ⟨opcode, hopcode, hflagged⟩ := isEncodable_iff.1 hline
    rw [layout_of_isEncodable hopcode hflagged, List.length_cons, size, if_pos hline]
    cases hpair : line.isRegisterPair with
    | true =>
      obtain ⟨source, dest, hwords⟩ := operandsLayout_of_isRegisterPair hpair lookup
      rw [hwords]
      rfl
    | false =>
      rw [operandsLayout_of_not_isRegisterPair hpair, List.length_append,
        length_operand_layout, length_operand_layout, if_neg (by simp)]
      omega

@[simp] theorem codeLayout_cons (lookup : String → Option Address) (line : Line)
    (rest : List Line) :
    codeLayout lookup (line :: rest) = line.layout lookup ++ codeLayout lookup rest :=
  List.flatMap_cons

theorem length_codeLayout (lookup : String → Option Address) (lines : List Line) :
    (codeLayout lookup lines).length = codeSize lines := by
  induction lines with
  | nil => rfl
  | cons line rest ih =>
    rw [codeLayout_cons, List.length_append, Line.length_layout, ih, codeSize_cons]

/-- The number of words of a program: those of its lines and those of its data. -/
def FirstPass.size (program : FirstPass) : Nat :=
  codeSize program.lines + min program.dataCount program.data.length

theorem length_layout (program : FirstPass) : program.layout.length = program.size := by
  rw [FirstPass.layout, List.length_append, length_codeLayout, FirstPass.dataLayout,
    List.length_map, List.length_take, FirstPass.size]

theorem codeSize_le_length_layout (program : FirstPass) :
    codeSize program.lines ≤ program.layout.length := by
  rw [FirstPass.layout, List.length_append, length_codeLayout]
  omega

/-- The words of a line lie past those of all earlier lines. -/
theorem getElem?_codeLayout (lookup : String → Option Address) {lines : List Line} {i : Nat}
    {line : Line} (hi : lines[i]? = some line) {j : Nat} (hj : j < line.size) :
    (codeLayout lookup lines)[codeSize (lines.take i) + j]? = (line.layout lookup)[j]? := by
  induction lines generalizing i with
  | nil => simp at hi
  | cons first rest ih =>
    rw [codeLayout_cons]
    cases i with
    | zero =>
      obtain rfl : first = line := by simpa using hi
      rw [List.take_zero, codeSize_nil, Nat.zero_add,
        List.getElem?_append_left (by rwa [Line.length_layout])]
    | succ i =>
      -- passing the first line takes its size off the place
      have hrest : rest[i]? = some line := by simpa using hi
      rw [List.take_succ_cons, codeSize_cons, Nat.add_assoc,
        List.getElem?_append_right (by rw [Line.length_layout]; omega), Line.length_layout,
        Nat.add_sub_cancel_left, ih hrest]

end SecondPass
