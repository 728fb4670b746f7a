import SecondPass.Proofs.Fields
import SecondPass.Proofs.Uses

/-!
# Reading code back

The words of a line do not say how many they are. A reader finds out from the opcode, which knows
how many operands it takes, and from the modes in the instruction word: an operand that is missing
and an immediate one have the same mode number, and two registers share a word. `readLines` is that
reader. It looks at words through `Word.instruction?`, `Word.registerFields`, `Word.era?` and
`Word.payload` only, and what it gets back is a `LineView` for each line.

What is read from the words of a line comes back whatever words follow (`readLine_layout`), so
lines are told apart one after the other (`readLines_codeLayout`).
-/

namespace SecondPass

/-! ## Views -/

/-- What the words of an operand tell: its mode, a register as it is, any other number as its
residue, and for a label the tag besides. -/
inductive OperandView where
  | absent
  | immediate (value : Nat)
  | direct (era : Era) (address : Nat)
  | indexed (era : Era) (address index : Nat)
  | register (number : Nat)
  deriving DecidableEq, Repr

/-- What the words of a line tell. -/
structure LineView where
  opcode : Opcode
  source : OperandView
  dest : OperandView
  deriving DecidableEq, Repr

/-- The tag of the words that hold an address. -/
def Address.era : Address → Era
  | external _ => .external
  | _ => .relocatable

/-- What twelve bits keep of a number. -/
def residue (value : Int32) : Nat := (value.toInt % 4096).toNat

/-- The view of an operand; `find` says where its label lives, and there is none if it lives
nowhere. -/
def Operand.view? (find : LabelRef → Option Address) : Operand → Option OperandView
  | absent => some .absent
  | immediate value => some (.immediate (residue value))
  | direct label => (find label).map fun address => .direct address.era (address.number % 4096)
  | indexed label index =>
    (find label).map fun address => .indexed address.era (address.number % 4096) (residue index)
  | register number => some (.register number)

/-- The view of a line with an instruction whose labels live somewhere. -/
def Line.view? (find : LabelRef → Option Address) (line : Line) : Option LineView :=
  match line.opcode?, line.source.operand.view? find, line.dest.operand.view? find with
  | some opcode, some source, some dest => some ⟨opcode, source, dest⟩
  | _, _, _ => none

/-- Where the label of an operand lives by a table. -/
def SymbolTable.find (symbols : SymbolTable .final) (label : LabelRef) : Option Address :=
  symbols.address? label.name

/-! ## Operands of opcodes -/

/-- How many operands an opcode takes. A single operand is a destination. -/
def Opcode.operandCount : Opcode → Nat
  | mov | cmp | add | sub | lea => 2
  | not | clr | inc | dec | jmp | bne | red | prn | jsr => 1
  | rts | hlt => 0

/-- Whether an opcode takes an operand in a position. -/
def Opcode.takes (opcode : Opcode) : Position → Bool
  | .source => opcode.operandCount == 2
  | .dest => opcode.operandCount != 0

/-- A line is in order when no fault was found in it and it has an instruction with exactly the
operands that the opcode takes. -/
def Line.IsInOrder (line : Line) : Prop :=
  line.flagged = false ∧ ∃ opcode ∈ line.opcode?,
    ∀ position, (line.slot position).operand.isPresent = opcode.takes position

instance (p : Position → Prop) [DecidablePred p] : Decidable (∀ position, p position) :=
  decidable_of_iff (p .source ∧ p .dest)
    ⟨fun h position => position.casesOn h.1 h.2, fun h => ⟨h _, h _⟩⟩

instance (line : Line) : Decidable line.IsInOrder :=
  inferInstanceAs (Decidable (_ ∧ ∃ opcode ∈ line.opcode?, _))

/-! ## The reader -/

/-- Reads an operand of a given mode, or none, and leaves the words that follow. -/
def readOperand (position : Position) :
    Option AddressingMode → List Word → Option (OperandView × List Word)
  | none, words => some (.absent, words)
  | some .immediate, word :: rest => some (.immediate word.payload, rest)
  | some .direct, word :: rest => word.era?.map fun era => (.direct era word.payload, rest)
  | some .indexed, word :: index :: rest =>
    word.era?.map fun era => (.indexed era word.payload index.payload, rest)
  | some .register, word :: rest =>
    match position with
    | .source => some (.register word.registerFields.source, rest)
    | .dest => some (.register word.registerFields.dest, rest)
  | _, _ => none

/-- Reads both operands of an instruction; two registers are in one word. -/
def readOperands (sourceMode destMode : Option AddressingMode) (words : List Word) :
    Option (OperandView × OperandView × List Word) :=
  match sourceMode, destMode, words with
  | some .register, some .register, [] => none
  | some .register, some .register, word :: rest =>
    some (.register word.registerFields.source, .register word.registerFields.dest, rest)
  | _, _, _ => do
    let (source, rest) ← readOperand .source sourceMode words
    let (dest, rest) ← readOperand .dest destMode rest
    return (source, dest, rest)

/-- The mode number of the operand in a position. -/
def InstructionFields.modeCode (fields : InstructionFields) : Position → Nat
  | .source => fields.sourceMode
  | .dest => fields.destMode

/-- The mode of the operand in a position, if the opcode takes one there. -/
def InstructionFields.mode? (fields : InstructionFields) (position : Position) :
    Option AddressingMode :=
  if fields.opcode.takes position then AddressingMode.ofCode? (fields.modeCode position) else none

/-- Reads the line whose instruction word is given and whose other words come next. -/
def readLine (word : Word) (words : List Word) : Option (LineView × List Word) := do
  let fields ← word.instruction?
  let (source, dest, rest) ← readOperands (fields.mode? .source) (fields.mode? .dest) words
  return (⟨fields.opcode, source, dest⟩, rest)

/-- Reading an operand leaves the words behind it. -/
theorem suffix_of_readOperand {position : Position} {mode : Option AddressingMode}
    {words rest : List Word} {view : OperandView}
    (h : readOperand position mode words = some (view, rest)) : rest <:+ words := by
  unfold readOperand at h
  split at h
  · obtain ⟨-, rfl⟩ : _ ∧ words = rest := by simpa using h
    exact List.suffix_refl _
  · obtain ⟨-, rfl⟩ := by simpa using h
    exact List.suffix_cons _ _
  · obtain ⟨era, -, hread⟩ := Option.map_eq_some_iff.1 h
    obtain ⟨-, rfl⟩ := by simpa using hread
    exact List.suffix_cons _ _
  · obtain ⟨era, -, hread⟩ := Option.map_eq_some_iff.1 h
    obtain ⟨-, rfl⟩ := by simpa using hread
    exact ⟨[_, _], rfl⟩
  · cases position with
    | source =>
      obtain ⟨-, rfl⟩ := by simpa using h
      exact List.suffix_cons _ _
    | dest =>
      obtain ⟨-, rfl⟩ := by simpa using h
      exact List.suffix_cons _ _
  · simp at h

theorem suffix_of_readOperands {sourceMode destMode : Option AddressingMode}
    {words rest : List Word} {source dest : OperandView}
    (h : readOperands sourceMode destMode words = some (source, dest, rest)) :
    rest <:+ words := by
  unfold readOperands at h
  split at h
  · simp at h
  · obtain ⟨-, -, rfl⟩ := by simpa using h
    exact List.suffix_cons _ _
  · obtain ⟨⟨first, between⟩, hsource, h⟩ := Option.bind_eq_some_iff.1 h
    obtain ⟨⟨second, after⟩, hdest, h⟩ := Option.bind_eq_some_iff.1 h
    obtain ⟨-, -, rfl⟩ : first = source ∧ second = dest ∧ after = rest := by simpa using h
    exact (suffix_of_readOperand hdest).trans (suffix_of_readOperand hsource)

theorem suffix_of_readLine {word : Word} {words rest : List Word} {view : LineView}
    (h : readLine word words = some (view, rest)) : rest <:+ words := by
  obtain ⟨fields, -, h⟩ := Option.bind_eq_some_iff.1 h
  obtain ⟨⟨source, dest, after⟩, hoperands, h⟩ := Option.bind_eq_some_iff.1 h
  obtain ⟨-, rfl⟩ : _ ∧ after = rest := by simpa using h
  exact suffix_of_readOperands hoperands

/-- Reads lines one after the other until no word is left. -/
def readLines : List Word → Option (List LineView)
  | [] => some []
  | word :: words =>
    match _h : readLine word words with
    | none => none
    | some (view, rest) => (readLines rest).map (view :: ·)
termination_by words => words.length
decreasing_by exact Nat.lt_succ_of_le (suffix_of_readLine _h).length_le

theorem readLines_cons {word : Word} {words rest : List Word} {view : LineView}
    (h : readLine word words = some (view, rest)) :
    readLines (word :: words) = (readLines rest).map (view :: ·) := by
  rw [readLines]
  split
  · rename_i hnone
    rw [h] at hnone
    contradiction
  · rename_i hsome
    rw [h] at hsome
    obtain ⟨rfl, rfl⟩ : _ ∧ _ := by simpa using hsome
    rfl

/-! ## Reading operands back -/

section Operands

variable {symbols : SymbolTable .final} {config : Config}

@[simp] theorem Address.era?_word (address : Address) : address.word.era? = some address.era := by
  cases address <;> exact Word.era?_tagged _ _

@[simp] theorem Address.payload_word (address : Address) :
    address.word.payload = address.number % 4096 := by
  cases address <;> exact Word.payload_tagged_ofNat _ _

theorem LabelRef.resolved_settle {lookup : String → Option Address} {label : LabelRef}
    {address : Address} (h : lookup label.name = some address) :
    (label.settle lookup).resolved = some address := by
  rw [settle, h, Option.some_or]

/-- A register that resolves fits the three bits of its field. -/
theorem lt_registerLimit {number : Nat} {lookup : String → Option Address}
    (h : (Operand.register number).resolves lookup config = true) : number < 8 := by
  have hlt : number < config.usableRegisters := by simpa [Operand.resolves] using h
  exact Nat.lt_of_lt_of_le hlt config.usableRegisters_le

/-- The label of an operand that resolves lives somewhere. -/
theorem Operand.exists_address_of_resolves {operand : Operand} {label : LabelRef}
    (hresolves : operand.resolves symbols.address? config = true)
    (hlabel : operand.label? = some label) : ∃ address, symbols.find label = some address := by
  apply Option.isSome_iff_exists.1
  cases operand <;> simp_all [label?, resolves, SymbolTable.find]

/-- An operand that resolves has a view, and the operand that it settles to shows the same. -/
theorem Operand.exists_view_of_resolves {operand : Operand}
    (hresolves : operand.resolves symbols.address? config = true) :
    ∃ view, operand.view? symbols.find = some view ∧
      (operand.settle symbols.address?).view? LabelRef.resolved = some view := by
  cases operand with
  | absent => exact ⟨_, rfl, rfl⟩
  | immediate value => exact ⟨_, rfl, rfl⟩
  | register number => exact ⟨_, rfl, rfl⟩
  | direct label =>
    obtain ⟨address, haddress⟩ := exists_address_of_resolves hresolves rfl
    refine ⟨.direct address.era (address.number % 4096), ?_, ?_⟩
    · rw [view?, haddress, Option.map_some]
    · rw [settle, view?, LabelRef.resolved_settle haddress, Option.map_some]
  | indexed label index =>
    obtain ⟨address, haddress⟩ := exists_address_of_resolves hresolves rfl
    refine ⟨.indexed address.era (address.number % 4096) (residue index), ?_, ?_⟩
    · rw [view?, haddress, Option.map_some]
    · rw [settle, view?, LabelRef.resolved_settle haddress, Option.map_some]

/-- The mode number of an operand gives its mode back, if it is known whether it is there. -/
theorem Operand.ofCode?_modeCode (operand : Operand) :
    (if operand.isPresent then AddressingMode.ofCode? (operand.modeCode % 4) else none) =
      operand.mode? := by
  cases operand <;> rfl

/-- The words of an operand that resolves are read back by its mode, whatever follows them. -/
theorem readOperand_layout {operand : Operand} {view : OperandView}
    (hresolves : operand.resolves symbols.address? config = true)
    (hview : operand.view? symbols.find = some view) (position : Position) (rest : List Word) :
    readOperand position operand.mode? (operand.layout symbols.address? position ++ rest) =
      some (view, rest) := by
  cases operand with
  | absent =>
    obtain rfl : OperandView.absent = view := by simpa [Operand.view?] using hview
    rfl
  | immediate value =>
    obtain rfl : OperandView.immediate (residue value) = view := by
      simpa [Operand.view?] using hview
    show some (OperandView.immediate (Word.tagged _ _).payload, rest) = _
    rw [Word.payload_tagged_ofInt, residue]
  | direct label =>
    obtain ⟨address, haddress, rfl⟩ := Option.map_eq_some_iff.1 hview
    have hword : label.layout symbols.address? = address.word :=
      LabelRef.layout_of_lookup haddress
    show (label.layout symbols.address?).era?.map (fun era =>
      (OperandView.direct era (label.layout symbols.address?).payload, rest)) = _
    rw [hword, Address.era?_word, Option.map_some, Address.payload_word]
  | indexed label index =>
    obtain ⟨address, haddress, rfl⟩ := Option.map_eq_some_iff.1 hview
    have hword : label.layout symbols.address? = address.word :=
      LabelRef.layout_of_lookup haddress
    show (label.layout symbols.address?).era?.map (fun era =>
      (OperandView.indexed era (label.layout symbols.address?).payload
        (Word.tagged _ _).payload, rest)) = _
    rw [hword, Address.era?_word, Option.map_some, Address.payload_word,
      Word.payload_tagged_ofInt, residue]
  | register number =>
    obtain rfl : OperandView.register number = view := by simpa [Operand.view?] using hview
    have hexact : number % 8 = number := Nat.mod_eq_of_lt (lt_registerLimit hresolves)
    cases position <;>
      simp [readOperand, Operand.mode?, Operand.layout, Word.registerFields_registers, hexact]

/-- Operands that are not two registers are read one after the other. -/
theorem readOperands_of_not_isRegisterPair {line : Line} (h : line.isRegisterPair = false)
    (words : List Word) :
    readOperands line.source.operand.mode? line.dest.operand.mode? words =
      (readOperand .source line.source.operand.mode? words).bind fun source =>
        (readOperand .dest line.dest.operand.mode? source.2).bind fun dest =>
          some (source.1, dest.1, dest.2) := by
  have hpair : ¬ (line.source.operand.mode? = some .register ∧
      line.dest.operand.mode? = some .register) := by
    rintro ⟨hsource, hdest⟩
    simp [Line.isRegisterPair, Operand.isSome_register?_eq, hsource, hdest] at h
  unfold readOperands
  split
  · rename_i hsource hdest
    exact absurd ⟨hsource, hdest⟩ hpair
  · rename_i hsource hdest
    exact absurd ⟨hsource, hdest⟩ hpair
  · rfl

/-- The words of both operands are read back by their modes. -/
theorem readOperands_layout {line : Line} {source dest : OperandView}
    (hsource : line.source.operand.resolves symbols.address? config = true)
    (hdest : line.dest.operand.resolves symbols.address? config = true)
    (hsourceView : line.source.operand.view? symbols.find = some source)
    (hdestView : line.dest.operand.view? symbols.find = some dest) (rest : List Word) :
    readOperands line.source.operand.mode? line.dest.operand.mode?
        (operandsLayout symbols.address? line.source.operand line.dest.operand ++ rest) =
      some (source, dest, rest) := by
  cases hpair : line.isRegisterPair with
  | true =>
    obtain ⟨first, second, hfirst, hsecond⟩ := Line.isRegisterPair_iff.1 hpair
    rw [hfirst] at hsource hsourceView ⊢
    rw [hsecond] at hdest hdestView ⊢
    obtain rfl : OperandView.register first = source := by
      simpa [Operand.view?] using hsourceView
    obtain rfl : OperandView.register second = dest := by
      simpa [Operand.view?] using hdestView
    have hfirstExact : first % 8 = first := Nat.mod_eq_of_lt (lt_registerLimit hsource)
    have hsecondExact : second % 8 = second := Nat.mod_eq_of_lt (lt_registerLimit hdest)
    simp [readOperands, operandsLayout, Operand.mode?, Word.registerFields_registers,
      hfirstExact, hsecondExact]
  | false =>
    have hreadSource := readOperand_layout hsource hsourceView .source
      (line.dest.operand.layout symbols.address? .dest ++ rest)
    have hreadDest := readOperand_layout hdest hdestView .dest rest
    rw [operandsLayout_of_not_isRegisterPair hpair, List.append_assoc,
      readOperands_of_not_isRegisterPair hpair, hreadSource, Option.bind_some, hreadDest]
    rfl

/-! ## Reading lines back -/

/-- The modes of a line in order are those that its instruction word is read with. -/
theorem Line.mode?_fields {line : Line} {opcode : Opcode}
    (htakes : ∀ position, (line.slot position).operand.isPresent = opcode.takes position)
    (position : Position) :
    InstructionFields.mode?
        ⟨opcode, line.source.operand.modeCode % 4, line.dest.operand.modeCode % 4⟩ position =
      (line.slot position).operand.mode? := by
  rw [InstructionFields.mode?, ← htakes position]
  cases position with
  | source => exact Operand.ofCode?_modeCode line.source.operand
  | dest => exact Operand.ofCode?_modeCode line.dest.operand

theorem Line.IsInOrder.isEncodable {line : Line} (h : line.IsInOrder) :
    line.isEncodable = true := by
  obtain ⟨hflagged, opcode, hopcode, -⟩ := h
  exact isEncodable_iff.2 ⟨opcode, hopcode, hflagged⟩

/-- A line in order that does not fail is read back, whatever words follow its own. -/
theorem readLine_layout {line : Line} (hline : line.IsInOrder)
    (hok : line.fails symbols.address? config = false) :
    ∃ view word words, line.view? symbols.find = some view ∧
      line.layout symbols.address? = word :: words ∧
      ∀ rest, readLine word (words ++ rest) = some (view, rest) := by
  obtain ⟨hsource, hdest⟩ := Line.resolves_of_fails_eq_false hline.isEncodable hok
  obtain ⟨source, hsourceView, -⟩ := Operand.exists_view_of_resolves hsource
  obtain ⟨dest, hdestView, -⟩ := Operand.exists_view_of_resolves hdest
  obtain ⟨hflagged, opcode, hopcode, htakes⟩ := hline
  refine ⟨⟨opcode, source, dest⟩, _, _, ?_, Line.layout_of_isEncodable hopcode hflagged _, ?_⟩
  · rw [Line.view?, hopcode, hsourceView, hdestView]
  -- the modes that are read are those of the operands, as the line is in order
  · intro rest
    have hread := readOperands_layout hsource hdest hsourceView hdestView rest
    rw [readLine, Word.instruction?_instruction]
    show (readOperands (InstructionFields.mode? _ .source)
      (InstructionFields.mode? _ .dest) _).bind _ = _
    rw [Line.mode?_fields htakes .source, Line.mode?_fields htakes .dest]
    show (readOperands line.source.operand.mode? line.dest.operand.mode? _).bind _ = _
    rw [hread]
    rfl

/-- Lines in order that do not fail are read back one by one. -/
theorem readLines_codeLayout {lines : List Line} (hlines : ∀ line ∈ lines, line.IsInOrder)
    (hok : ∀ line ∈ lines, line.fails symbols.address? config = false) :
    ∃ views, readLines (codeLayout symbols.address? lines) = some views ∧
      lines.map (Line.view? symbols.find) = views.map some := by
  induction lines with
  | nil => exact ⟨[], by rw [codeLayout, List.flatMap_nil, readLines], rfl⟩
  | cons line rest ih =>
    obtain ⟨view, word, words, hview, hlayout, hread⟩ :=
      readLine_layout (hlines line List.mem_cons_self) (hok line List.mem_cons_self)
    obtain ⟨views, hviews, hmap⟩ :=
      ih (fun other hother => hlines other (List.mem_cons_of_mem _ hother))
        (fun other hother => hok other (List.mem_cons_of_mem _ hother))
    refine ⟨view :: views, ?_, ?_⟩
    -- the words of the later lines are what follows the words of this one
    · rw [codeLayout_cons, hlayout, List.cons_append, readLines_cons (hread _), hviews,
        Option.map_some]
    · rw [List.map_cons, List.map_cons, hview, hmap]

/-! ## Lines after encoding -/

/-- A line that does not fail shows after encoding, by the addresses it resolved to, what it
showed before by the table. -/
theorem Line.view?_place {line : Line} (hline : line.isEncodable = true)
    (hok : line.fails symbols.address? config = false) (address : Nat → Nat) :
    (line.place symbols.address? config address).view? LabelRef.resolved =
      line.view? symbols.find := by
  obtain ⟨hsource, hdest⟩ := resolves_of_fails_eq_false hline hok
  obtain ⟨source, hsourceView, hsourceSettle⟩ := Operand.exists_view_of_resolves hsource
  obtain ⟨dest, hdestView, hdestSettle⟩ := Operand.exists_view_of_resolves hdest
  rw [place, if_pos hline]
  cases hpair : line.isRegisterPair with
  | true =>
    obtain ⟨first, second, hfirst, hsecond⟩ := isRegisterPair_iff.1 hpair
    simp [view?, hfirst, hsecond, Operand.view?]
  | false =>
    rw [if_neg (by simp), view?, view?, hsourceView, hdestView]
    show (match line.opcode?, (line.source.operand.settle symbols.address?).view? _,
      (line.dest.operand.settle symbols.address?).view? _ with
      | some opcode, some source, some dest => some (LineView.mk opcode source dest)
      | _, _, _ => none) = _
    rw [hsourceSettle, hdestSettle]

theorem view?_placeLines {lines : List Line} (hlines : ∀ line ∈ lines, line.isEncodable = true)
    (hok : ∀ line ∈ lines, line.fails symbols.address? config = false) (address : Nat → Nat) :
    (placeLines symbols.address? config address lines).map (Line.view? LabelRef.resolved) =
      lines.map (Line.view? symbols.find) := by
  induction lines generalizing address with
  | nil => rfl
  | cons line rest ih =>
    rw [placeLines, List.map_cons, List.map_cons,
      Line.view?_place (hlines line List.mem_cons_self) (hok line List.mem_cons_self),
      ih (fun other hother => hlines other (List.mem_cons_of_mem _ hother))
        (fun other hother => hok other (List.mem_cons_of_mem _ hother))]

end Operands

/-! ## Unique decoding -/

/-- Lines in order that were encoded one after the other into a fresh image, without a fault and
without a dropped word; `code` is what the run has left. -/
structure EncodedCleanly (symbols : SymbolTable .final) (config origin : Config)
    (lines : List Line) (code : CodeEncoding) : Prop where
  run : (encodeLines symbols config lines (Image.new origin)).value = code
  inOrder : ∀ line ∈ lines, line.IsInOrder
  ok : code.failures = 0
  fits : code.image.dropped = 0

namespace EncodedCleanly

variable {symbols : SymbolTable .final} {config origin : Config} {lines : List Line}
  {code : CodeEncoding}

theorem fails_eq_false (h : EncodedCleanly symbols config origin lines code) :
    ∀ line ∈ lines, line.fails symbols.address? config = false := by
  have hcount : lines.countP (Line.fails symbols.address? config) = 0 := by
    rw [← h.ok, ← h.run, value_encodeLines]
  intro line hline
  simpa using List.countP_eq_zero.1 hcount line hline

/-- The image holds the words of all lines. -/
theorem words_eq (h : EncodedCleanly symbols config origin lines code) :
    code.image.words.toList = codeLayout symbols.address? lines := by
  have hfits := h.fits
  rw [← h.run, value_encodeLines] at hfits ⊢
  have hlength : (codeLayout symbols.address? lines).length ≤ (Image.new origin).room := by
    have hzero : 0 + ((codeLayout symbols.address? lines).length - (Image.new origin).room) = 0 :=
      hfits
    omega
  show ((Image.new origin).offer _).words.toList = _
  rw [Image.toList_words_offer, List.take_of_length_le hlength]
  rfl

/-- The image is read back as the lines that the run was given. -/
theorem exists_views (h : EncodedCleanly symbols config origin lines code) :
    ∃ views, readLines code.image.words.toList = some views ∧
      lines.map (Line.view? symbols.find) = views.map some := by
  rw [h.words_eq]
  exact readLines_codeLayout h.inOrder h.fails_eq_false

/-- The lines that the run has left show what the lines showed that it was given. -/
theorem views_eq (h : EncodedCleanly symbols config origin lines code) :
    code.lines.map (Line.view? LabelRef.resolved) = lines.map (Line.view? symbols.find) := by
  rw [← h.run, value_encodeLines]
  exact view?_placeLines (fun line hline => (h.inOrder line hline).isEncodable)
    h.fails_eq_false _

end EncodedCleanly

/-- **Code can be read back.** The words of cleanly encoded lines alone tell how many lines there
are, and for each its opcode, the mode of each operand, registers as they are, immediate values and
indexes as residues, and for each label its tag and the residue of its address. So lines that are
encoded cleanly to the same words agree on all of this. -/
theorem readLines_encodedCleanly {symbols : SymbolTable .final} {config origin : Config}
    {lines : List Line} {code : CodeEncoding}
    (h : EncodedCleanly symbols config origin lines code) :
    (∃ views, readLines code.image.words.toList = some views ∧
        lines.map (Line.view? symbols.find) = views.map some ∧
        code.lines.map (Line.view? LabelRef.resolved) = views.map some) ∧
      ∀ {otherSymbols : SymbolTable .final} {otherConfig otherOrigin : Config}
        {others : List Line} {otherCode : CodeEncoding},
        EncodedCleanly otherSymbols otherConfig otherOrigin others otherCode →
        otherCode.image.words = code.image.words →
          others.map (Line.view? otherSymbols.find) = lines.map (Line.view? symbols.find) ∧
          otherCode.lines.map (Line.view? LabelRef.resolved) =
            code.lines.map (Line.view? LabelRef.resolved) := by
  obtain ⟨views, hviews, hmap⟩ := h.exists_views
  refine ⟨⟨views, hviews, hmap, h.views_eq.trans hmap⟩, ?_⟩
  intro otherSymbols otherConfig otherOrigin others otherCode hother hwords
  obtain ⟨otherViews, hotherViews, hotherMap⟩ := hother.exists_views
  -- equal words are read as the same views
  have hsame : otherViews = views := by
    rw [hwords, hviews] at hotherViews
    exact (Option.some.inj hotherViews).symm
  have hlines : others.map (Line.view? otherSymbols.find) =
      lines.map (Line.view? symbols.find) := by
    rw [hotherMap, hmap, hsame]
  exact ⟨hlines, by rw [hother.views_eq, h.views_eq, hlines]⟩

/-- The first six lines of the sample use every kind of operand and every number of operands. -/
theorem readLines_sampleProgram :
    ∃ code, EncodedCleanly (sampleProgram.symbols.relocate 114) {} {}
        (sampleProgram.lines.take 6) code ∧ code.image.words.size = 14 ∧
      readLines code.image.words.toList =
        some [⟨.mov, .indexed .relocatable 115 2, .register 3⟩,
          ⟨.jsr, .absent, .direct .external 17⟩,
          ⟨.cmp, .direct .relocatable 100, .direct .external 17⟩,
          ⟨.mov, .register 1, .register 6⟩,
          ⟨.prn, .absent, .immediate 4091⟩,
          ⟨.hlt, .absent, .absent⟩] := by
  have hclean : EncodedCleanly (sampleProgram.symbols.relocate 114) {} {}
      (sampleProgram.lines.take 6)
      (encodeLines (sampleProgram.symbols.relocate 114) {} (sampleProgram.lines.take 6)
        (Image.new {})).value := by
    exact ⟨rfl, by decide, rfl, rfl⟩
  obtain ⟨⟨views, hviews, hmap, -⟩, -⟩ := readLines_encodedCleanly hclean
  refine ⟨_, hclean, rfl, ?_⟩
  rw [hviews]
  exact congrArg some ((List.map_inj_right fun _ _ => Option.some.inj).1 (hmap.symm.trans rfl))

end SecondPass
