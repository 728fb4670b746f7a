import SecondPass.Proofs.Layout
import SecondPass.Proofs.Offer

/-!
# A run in closed form

What the second pass makes of a program, step by step and then as a whole. An operand resolves to
`Operand.settle`, a line becomes `Line.place` and offers `Line.layout` to the image
(`Line.value_encode`), and lines add up (`value_encodeLines`). So `assemble` fills the image with
the layout of the program, cut at the capacity. The diagnostics of a run are listed in the same
way, operand by operand.
-/

namespace SecondPass

/-! ## Fields of words -/

theorem Word.ofValue_eq_tagged (era : Era) (value : Int32) :
    ofValue era value = tagged era (BitVec.ofInt 12 value.toInt) := by
  have h := BitVec.signExtend_eq_setWidth_of_le value.toBitVec (v := 12) (by decide)
  rw [ofValue, ← h]
  rfl

/-- An address loses nothing but its high bits on the way into a payload. -/
theorem Word.ofValue_ofNat (era : Era) (n : Nat) :
    ofValue era (Int32.ofNat n) = tagged era (BitVec.ofNat 12 n) := by
  have h : (Int32.ofNat n).toBitVec.setWidth 12 = BitVec.ofNat 12 n := by
    apply BitVec.eq_of_toNat_eq
    simp
  rw [ofValue, h]

/-! ## Operands -/

/-- A label after an attempt to find where its name lives. -/
def LabelRef.settle (lookup : String → Option Address) (label : LabelRef) : LabelRef :=
  { label with resolved := (lookup label.name).or label.resolved }

@[simp] theorem LabelRef.name_settle (lookup : String → Option Address) (label : LabelRef) :
    (label.settle lookup).name = label.name := rfl

namespace Operand

/-- An operand after an attempt to resolve it. -/
def settle (lookup : String → Option Address) : Operand → Operand
  | direct label => direct (label.settle lookup)
  | indexed label index => indexed (label.settle lookup) index
  | operand => operand

/-- Whether an operand resolves: its label lives somewhere, or the machine has its register. -/
def resolves (lookup : String → Option Address) (config : Config) : Operand → Bool
  | direct label => (lookup label.name).isSome
  | indexed label _ => (lookup label.name).isSome
  | register number => decide (number < config.usableRegisters)
  | _ => true

/-- What is reported about an operand that does not resolve. -/
def complaints (lookup : String → Option Address) (config : Config) (line : Nat)
    (operand : Operand) : List Diagnostic :=
  match operand.resolves lookup config, operand.register?, operand.label? with
  | false, some number, _ => [⟨some line, .noSuchRegister number⟩]
  | false, none, some label =>
    if isLegalLabel label.name config then [⟨some line, .noSuchLabel label.name⟩] else []
  | _, _, _ => []

@[simp] theorem settle_register (lookup : String → Option Address) (number : Nat) :
    (register number).settle lookup = register number := rfl

@[simp] theorem register?_settle (lookup : String → Option Address) (operand : Operand) :
    (operand.settle lookup).register? = operand.register? := by
  cases operand <;> rfl

@[simp] theorem isPresent_settle (lookup : String → Option Address) (operand : Operand) :
    (operand.settle lookup).isPresent = operand.isPresent := by
  cases operand <;> rfl

@[simp] theorem modeCode_settle (lookup : String → Option Address) (operand : Operand) :
    (operand.settle lookup).modeCode = operand.modeCode := by
  cases operand <;> rfl

@[simp] theorem label?_settle (lookup : String → Option Address) (operand : Operand) :
    (operand.settle lookup).label? = operand.label?.map (LabelRef.settle lookup) := by
  cases operand <;> rfl

end Operand

theorem LabelRef.value_resolve (label : LabelRef) (build : LabelRef → Operand)
    (symbols : SymbolTable .final) (config : Config) (line : Nat) :
    (label.resolve build symbols config line).value =
      ⟨build (label.settle symbols.address?), (symbols.address? label.name).isSome⟩ := by
  unfold LabelRef.resolve LabelRef.settle
  cases symbols.address? label.name <;> rfl

/-- Resolving an operand settles it and tells whether it resolves. -/
theorem Operand.value_resolve (operand : Operand) (symbols : SymbolTable .final)
    (config : Config) (line : Nat) :
    (operand.resolve symbols config line).value =
      ⟨operand.settle symbols.address?, operand.resolves symbols.address? config⟩ := by
  cases operand with
  | absent => rfl
  | immediate value => rfl
  | direct label => exact label.value_resolve _ symbols config line
  | indexed label index => exact label.value_resolve _ symbols config line
  | register number =>
    by_cases h : number < config.usableRegisters <;> simp [resolve, settle, resolves, h]

theorem LabelRef.diagnostics_resolve (label : LabelRef) (build : LabelRef → Operand)
    (symbols : SymbolTable .final) (config : Config) (line : Nat) :
    (label.resolve build symbols config line).journal.diagnostics =
      if (symbols.address? label.name).isSome then []
      else if isLegalLabel label.name config then [⟨some line, .noSuchLabel label.name⟩]
      else [] := by
  unfold LabelRef.resolve reportMissing
  cases symbols.address? label.name with
  | some address => rfl
  | none => cases isLegalLabel label.name config <;> rfl

theorem Operand.diagnostics_resolve (operand : Operand) (symbols : SymbolTable .final)
    (config : Config) (line : Nat) :
    (operand.resolve symbols config line).journal.diagnostics =
      operand.complaints symbols.address? config line := by
  cases operand with
  | absent => rfl
  | immediate value => rfl
  | direct label =>
    rw [resolve, LabelRef.diagnostics_resolve, complaints, resolves]
    cases symbols.address? label.name <;> rfl
  | indexed label index =>
    rw [resolve, LabelRef.diagnostics_resolve, complaints, resolves]
    cases symbols.address? label.name <;> rfl
  | register number =>
    by_cases h : number < config.usableRegisters <;>
      simp [resolve, complaints, resolves, register?, h]

theorem LabelRef.ofValue_settle (lookup : String → Option Address) (label : LabelRef) :
    Word.ofValue (if (label.settle lookup).isExternal then .external else .relocatable)
        (Int32.ofNat (label.settle lookup).value) = label.layout lookup := by
  rw [Word.ofValue_ofNat]
  unfold LabelRef.layout LabelRef.isExternal LabelRef.value LabelRef.settle
  -- the table wins over the address that the label came with
  cases lookup label.name with
  | some address => cases address <;> rfl
  | none =>
    cases label.resolved with
    | some address => cases address <;> rfl
    | none => rfl

/-- A settled operand makes the words that its layout asks for. -/
theorem Operand.words_settle (lookup : String → Option Address) (position : Position)
    (operand : Operand) :
    (operand.settle lookup).words position = operand.layout lookup position := by
  cases operand with
  | absent => rfl
  | immediate value => rw [layout, ← Word.ofValue_eq_tagged]; rfl
  | direct label => rw [layout, ← label.ofValue_settle]; rfl
  | indexed label index => rw [layout, ← label.ofValue_settle, ← Word.ofValue_eq_tagged]; rfl
  | register number => cases position <;> rfl

/-! ## Slots -/

/-- A slot whose operand was settled and whose first word went to an address. -/
def Slot.place (lookup : String → Option Address) (address : Nat) (slot : Slot) : Slot where
  operand := slot.operand.settle lookup
  emittedAt := if slot.operand.isPresent then some address else slot.emittedAt

/-- A settled slot offers its layout and remembers the next address, unless it is empty. -/
theorem Slot.value_emit (lookup : String → Option Address) (slot : Slot) (position : Position)
    (image : Image) :
    (Slot.emit { slot with operand := slot.operand.settle lookup } position image).value =
      ⟨slot.place lookup image.nextAddress, image.offer (slot.operand.layout lookup position)⟩ := by
  unfold Slot.emit
  cases hpresent : slot.operand.isPresent with
  | true =>
    rw [if_pos (by simpa using hpresent), Logged.value_bind, Image.value_emitAll,
      Operand.words_settle, Slot.place, hpresent]
    rfl
  | false =>
    have habsent : slot.operand = .absent := by
      cases hoperand : slot.operand <;> simp_all [Operand.isPresent]
    rw [if_neg (by simp [hpresent]), Slot.place, hpresent, habsent, Operand.layout,
      Image.offer_nil]
    rfl

@[simp] theorem Slot.diagnostics_emit (slot : Slot) (position : Position) (image : Image) :
    (slot.emit position image).journal.diagnostics = [] := by
  unfold Slot.emit
  split
  · rw [Logged.journal_bind, Journal.diagnostics_append, Image.diagnostics_emitAll]
    rfl
  · rfl

/-- Registers in both slots go into one word, and no slot remembers an address. -/
theorem value_emitOperands_of_isRegisterPair {line : Line} (h : line.isRegisterPair = true)
    (lookup : String → Option Address) (image : Image) :
    (emitOperands { line.source with operand := line.source.operand.settle lookup }
        { line.dest with operand := line.dest.operand.settle lookup } image).value =
      ⟨line.source, line.dest,
        image.offer (operandsLayout lookup line.source.operand line.dest.operand)⟩ := by
  obtain ⟨source, dest, hsource, hdest⟩ := Line.isRegisterPair_iff.1 h
  have hemit : ∀ sourceAt destAt, (emitOperands ⟨.register source, sourceAt⟩
      ⟨.register dest, destAt⟩ image).value =
        ⟨⟨.register source, sourceAt⟩, ⟨.register dest, destAt⟩,
          image.offer [.registers (some source) (some dest)]⟩ := by
    intro sourceAt destAt
    rw [← Image.value_push, ← Image.value_emit]
    rfl
  rw [hsource, hdest, operandsLayout, Operand.settle_register, Operand.settle_register, hemit,
    ← hsource, ← hdest]

/-- Other operands go one after the other, the destination past the words of the source. -/
theorem value_emitOperands_of_not_isRegisterPair {line : Line} (h : line.isRegisterPair = false)
    (lookup : String → Option Address) (image : Image) :
    (emitOperands { line.source with operand := line.source.operand.settle lookup }
        { line.dest with operand := line.dest.operand.settle lookup } image).value =
      ⟨line.source.place lookup image.nextAddress,
        line.dest.place lookup (image.addressAfter line.source.operand.size),
        image.offer (operandsLayout lookup line.source.operand line.dest.operand)⟩ := by
  rw [operandsLayout_of_not_isRegisterPair h, Image.offer_append,
    ← length_operand_layout lookup .source, ← Image.nextAddress_offer]
  unfold emitOperands
  split
  · rename_i hsource hdest
    simp only [Operand.register?_settle] at hsource hdest
    simp [Line.isRegisterPair, hsource, hdest] at h
  · rw [Logged.value_bind, Logged.value_bind, Slot.value_emit, Slot.value_emit]
    rfl

@[simp] theorem diagnostics_emitOperands (source dest : Slot) (image : Image) :
    (emitOperands source dest image).journal.diagnostics = [] := by
  unfold emitOperands
  split <;> simp

/-! ## Lines -/

namespace Line

/-- Whether a line shows a fault that was not found before. -/
def fails (lookup : String → Option Address) (config : Config) (line : Line) : Bool :=
  line.isEncodable &&
    !(line.source.operand.resolves lookup config && line.dest.operand.resolves lookup config)

/-- What is reported about the operands of a line. -/
def complaints (lookup : String → Option Address) (config : Config) (line : Line) :
    List Diagnostic :=
  if line.isEncodable then
    line.source.operand.complaints lookup config line.number ++
      line.dest.operand.complaints lookup config line.number
  else []

/-- A line that was encoded. The word after `count` words of the line goes to `address count`. -/
def place (lookup : String → Option Address) (config : Config) (address : Nat → Nat)
    (line : Line) : Line :=
  if line.isEncodable then
    if line.isRegisterPair then { line with flagged := line.fails lookup config }
    else
      { line with
        source := line.source.place lookup (address 1)
        dest := line.dest.place lookup (address (1 + line.source.operand.size))
        flagged := line.fails lookup config }
  else line

/-- A line that makes words without a fault has operands that resolve. -/
theorem resolves_of_fails_eq_false {lookup : String → Option Address} {config : Config}
    {line : Line} (hline : line.isEncodable = true) (h : line.fails lookup config = false) :
    line.source.operand.resolves lookup config = true ∧
      line.dest.operand.resolves lookup config = true := by
  simpa [fails, hline] using h

/-- Encoding a line places it and offers its layout. -/
theorem value_encode (line : Line) (symbols : SymbolTable .final) (config : Config)
    (image : Image) :
    (line.encode symbols config image).value =
      ⟨line.place symbols.address? config image.addressAfter,
        image.offer (line.layout symbols.address?),
        !line.fails symbols.address? config⟩ := by
  cases hline : line.isEncodable with
  | false =>
    rw [encode_of_not_isEncodable hline, layout_of_not_isEncodable hline, Image.offer_nil, place,
      fails, hline]
    rfl
  | true =>
    obtain ⟨opcode, hopcode, hflagged⟩ := isEncodable_iff.1 hline
    rw [encode_eq_encodeAs hopcode hflagged, layout_of_isEncodable hopcode hflagged,
      Image.offer_cons]
    simp only [encodeAs, Logged.value_bind, Logged.value_pure, Operand.value_resolve,
      Operand.modeCode_settle, Image.value_emit, Image.value_push, place, fails, hline,
      Bool.true_and, Bool.not_not, if_true]
    cases hpair : line.isRegisterPair with
    | true => rw [value_emitOperands_of_isRegisterPair hpair]; rfl
    | false =>
      -- the operands are offered past the instruction word, so addresses shift by one
      rw [value_emitOperands_of_not_isRegisterPair hpair, Image.nextAddress_offer,
        Image.addressAfter_offer]
      rfl

theorem diagnostics_encode (line : Line) (symbols : SymbolTable .final) (config : Config)
    (image : Image) :
    (line.encode symbols config image).journal.diagnostics =
      line.complaints symbols.address? config := by
  unfold encode complaints
  split
  · rename_i opcode hopcode hflagged
    rw [if_pos (isEncodable_iff.2 ⟨opcode, hopcode, hflagged⟩)]
    simp [encodeAs, Operand.diagnostics_resolve]
  · rename_i hskip
    rw [if_neg]
    · rfl
    · intro hline
      obtain ⟨opcode, hopcode, hflagged⟩ := isEncodable_iff.1 hline
      exact hskip opcode hopcode hflagged

end Line

/-- Lines that were encoded one after the other. The word after `count` words of the lines goes to
`address count`. -/
def placeLines (lookup : String → Option Address) (config : Config) (address : Nat → Nat) :
    List Line → List Line
  | [] => []
  | line :: rest =>
    line.place lookup config address ::
      placeLines lookup config (fun count => address (line.size + count)) rest

/-- Encoding lines places them and offers all their words, in order. -/
theorem value_encodeLines (symbols : SymbolTable .final) (config : Config) (lines : List Line)
    (image : Image) :
    (encodeLines symbols config lines image).value =
      ⟨placeLines symbols.address? config image.addressAfter lines,
        image.offer (codeLayout symbols.address? lines),
        lines.countP (Line.fails symbols.address? config)⟩ := by
  induction lines generalizing image with
  | nil => rw [codeLayout, List.flatMap_nil, Image.offer_nil]; rfl
  | cons line rest ih =>
    -- the rest is placed by the addresses of the image that the first line leaves
    have haddress : (image.offer (line.layout symbols.address?)).addressAfter =
        fun count => image.addressAfter (line.size + count) := by
      funext count
      rw [Image.addressAfter_offer, Line.length_layout]
    rw [encodeLines, Logged.value_bind, Logged.value_bind, Line.value_encode, ih, haddress,
      codeLayout_cons, Image.offer_append, List.countP_cons, placeLines, Nat.add_comm]
    cases line.fails symbols.address? config <;> rfl

theorem diagnostics_encodeLines (symbols : SymbolTable .final) (config : Config)
    (lines : List Line) (image : Image) :
    (encodeLines symbols config lines image).journal.diagnostics =
      lines.flatMap (Line.complaints symbols.address? config) := by
  induction lines generalizing image with
  | nil => rfl
  | cons line rest ih =>
    rw [encodeLines, List.flatMap_cons, Logged.journal_bind, Logged.journal_bind,
      Journal.diagnostics_append, Journal.diagnostics_append, Line.diagnostics_encode, ih,
      Logged.journal_pure, Journal.diagnostics_empty, List.append_nil]

/-- Each line is placed past the words of all earlier lines. -/
theorem getElem?_placeLines (lookup : String → Option Address) (config : Config)
    (address : Nat → Nat) (lines : List Line) (i : Nat) :
    (placeLines lookup config address lines)[i]? =
      lines[i]?.map
        (Line.place lookup config fun count => address (codeSize (lines.take i) + count)) := by
  induction lines generalizing address i with
  | nil => rfl
  | cons line rest ih =>
    cases i with
    | zero => simp [placeLines]
    | succ i => simp [placeLines, ih, Nat.add_assoc]

/-! ## Entries -/

/-- What is wrong with an entry depends on where its name lives. -/
theorem Entry.problem?_eq (entry : Entry) (symbols : SymbolTable .final) :
    entry.problem? symbols =
      match symbols.address? entry.name with
      | some address => if address.isExternal then some (.externalEntry entry.name) else none
      | none => some (.noSuchLabel entry.name) := by
  rw [problem?, SymbolTable.address?]
  cases symbols.get? entry.name <;> rfl

/-- What a name exports depends on where it lives. -/
theorem export?_eq (symbols : SymbolTable .final) (name : String) :
    export? symbols name =
      match symbols.address? name with
      | some address => if address.isExternal then none else some (name, address.number)
      | none => none := by
  rw [export?, SymbolTable.address?]
  cases symbols.get? name <;> rfl

/-- What is reported about an entry. -/
def Entry.complaint? (symbols : SymbolTable .final) (entry : Entry) : Option Diagnostic :=
  (entry.problem? symbols).map fun problem => ⟨some entry.line, problem⟩

theorem value_checkEntries (symbols : SymbolTable .final) (entries : List Entry) :
    (checkEntries symbols entries).value =
      entries.countP fun entry => (entry.problem? symbols).isSome := by
  rw [checkEntries, Logged.value_bind]
  induction entries with
  | nil => rfl
  | cons entry rest ih =>
    rw [List.countP_cons, reportEntries]
    cases entry.problem? symbols with
    | none => exact ih
    | some problem => exact congrArg (· + 1) ih

theorem diagnostics_checkEntries (symbols : SymbolTable .final) (entries : List Entry) :
    (checkEntries symbols entries).journal.diagnostics =
      entries.filterMap (Entry.complaint? symbols) := by
  have hreport : (reportEntries symbols entries).journal.diagnostics =
      entries.filterMap (Entry.complaint? symbols) := by
    induction entries with
    | nil => rfl
    | cons entry rest ih =>
      rw [List.filterMap_cons, reportEntries, Entry.complaint?]
      cases entry.problem? symbols with
      | none => exact ih
      | some problem => simp [ih]
  simp [checkEntries, hreport]

/-! ## Programs -/

/-- The final table says where each name lives. -/
theorem address?_relocate (program : FirstPass) :
    (program.symbols.relocate program.instructionCount).address? = program.lookup := by
  funext name
  rw [SymbolTable.address?_relocate_eq_map, FirstPass.lookup]
  cases program.symbols.address? name with
  | none => rfl
  | some address => cases address <;> rfl

/-- The load address of the word after `count` words of a program. It stands still at the end of
the image. -/
def Config.addressAfter (config : Config) (count : Nat) : Nat :=
  config.firstAddress + min config.usableCapacity count

theorem addressAfter_new (config : Config) :
    (Image.new config).addressAfter = config.addressAfter := rfl

/-- The image of an assembled program was offered the layout of the program. -/
theorem image_assemble (program : FirstPass) (config : Config) :
    (assemble program config).value.image = (Image.new config).offer program.layout := by
  simp only [assemble, Logged.value_bind, SymbolTable.value_finalize, value_encodeLines,
    Image.value_appendData, address?_relocate, ← Image.offer_append]
  rfl

theorem symbols_assemble (program : FirstPass) (config : Config) :
    (assemble program config).value.symbols =
      program.symbols.relocate program.instructionCount := rfl

theorem lines_assemble (program : FirstPass) (config : Config) :
    (assemble program config).value.lines =
      placeLines program.lookup config config.addressAfter program.lines := by
  rw [← addressAfter_new, ← address?_relocate]
  exact congrArg CodeEncoding.lines (value_encodeLines _ config program.lines (Image.new config))

/-- A line of an assembled program was placed past the words of all earlier lines. -/
theorem eq_place_of_getElem? {program : FirstPass} {config : Config} {i : Nat}
    {line placed : Line} (hi : program.lines[i]? = some line)
    (hplaced : (assemble program config).value.lines[i]? = some placed) :
    placed = line.place program.lookup config fun count =>
      config.addressAfter (codeSize (program.lines.take i) + count) := by
  rw [lines_assemble, getElem?_placeLines, hi, Option.map_some] at hplaced
  exact (Option.some.inj hplaced).symm

/-- The error count adds up illegal entries, lines that fail and a refusal of the whole program. -/
theorem errorCount_assemble (program : FirstPass) (config : Config) :
    (assemble program config).value.errorCount =
      (program.entries.countP fun entry =>
          (entry.problem? (program.symbols.relocate program.instructionCount)).isSome) +
        program.lines.countP (Line.fails program.lookup config) +
        (reportOverflow config.overflow (assemble program config).value.image).value := by
  rw [image_assemble, ← value_checkEntries, ← address?_relocate, FirstPass.layout,
    Image.offer_append, FirstPass.dataLayout, ← Image.value_appendData, ← address?_relocate]
  simp only [assemble, Logged.value_bind, SymbolTable.value_finalize, value_encodeLines]
  rfl

theorem diagnostics_assemble (program : FirstPass) (config : Config) :
    (assemble program config).diagnostics =
      program.entries.filterMap
          (Entry.complaint? (program.symbols.relocate program.instructionCount)) ++
        program.lines.flatMap (Line.complaints program.lookup config) ++
        (reportOverflow config.overflow (assemble program config).value.image).diagnostics := by
  rw [← diagnostics_checkEntries, ← address?_relocate, ← diagnostics_encodeLines _ config _
    (Image.new config), List.append_assoc]
  simp [Logged.diagnostics, assemble, SymbolTable.finalize]

/-- Nothing is said about an image that has dropped no word. -/
theorem reportOverflow_of_dropped_eq_zero {image : Image} (h : image.dropped = 0)
    (overflow : OverflowPolicy) : reportOverflow overflow image = pure 0 := by
  unfold reportOverflow
  rw [if_pos h]

theorem toList_words_assemble (program : FirstPass) (config : Config) :
    (assemble program config).value.image.words.toList =
      program.layout.take config.usableCapacity := by
  rw [image_assemble, Image.toList_words_offer]
  rfl

theorem dropped_assemble (program : FirstPass) (config : Config) :
    (assemble program config).value.image.dropped =
      program.layout.length - config.usableCapacity := by
  rw [image_assemble]
  exact Nat.zero_add _

theorem size_assemble (program : FirstPass) (config : Config) :
    (assemble program config).value.image.size = min config.usableCapacity program.size := by
  rw [image_assemble, Image.size_offer, length_layout]
  exact Nat.zero_add _

/-- A word that comes before the end of the image is stored at its distance from the first
address. -/
theorem mem_loaded_of_getElem?_layout {program : FirstPass} {config : Config} {offset : Nat}
    {word : Word} (hword : program.layout[offset]? = some word)
    (hoffset : offset < config.usableCapacity) :
    (config.addressAfter offset, word) ∈ (assemble program config).value.image.loaded := by
  rw [Image.mem_loaded_iff]
  refine ⟨offset, ?_, ?_⟩
  · rw [toList_words_assemble, List.getElem?_take_of_lt hoffset, hword]
  · rw [image_assemble, Config.addressAfter, Nat.min_eq_right (Nat.le_of_lt hoffset)]
    rfl

/-- No word is stored at or past the end of the image. -/
theorem lt_usableCapacity_of_mem_loaded {program : FirstPass} {config : Config} {offset : Nat}
    {word : Word}
    (h : (config.addressAfter offset, word) ∈ (assemble program config).value.image.loaded) :
    offset < config.usableCapacity := by
  obtain ⟨i, hi, haddress⟩ := Image.mem_loaded_iff.1 h
  rw [toList_words_assemble] at hi
  have hlt := (List.getElem?_eq_some_iff.1 hi).1
  rw [List.length_take] at hlt
  rw [image_assemble, Config.addressAfter] at haddress
  have hfirst : ((Image.new config).offer program.layout).firstAddress = config.firstAddress := rfl
  omega

/-- A program that fits is in the image as a whole. -/
theorem length_layout_le_of_dropped_eq_zero {program : FirstPass} {config : Config}
    (h : (assemble program config).value.image.dropped = 0) :
    program.layout.length ≤ config.usableCapacity := by
  rw [dropped_assemble] at h
  omega

theorem toList_words_of_dropped_eq_zero {program : FirstPass} {config : Config}
    (h : (assemble program config).value.image.dropped = 0) :
    (assemble program config).value.image.words.toList = program.layout := by
  rw [toList_words_assemble, List.take_of_length_le (length_layout_le_of_dropped_eq_zero h)]

/-- Every word of a program that fits is stored. -/
theorem mem_loaded_of_dropped_eq_zero {program : FirstPass} {config : Config} {offset : Nat}
    {word : Word} (hfits : (assemble program config).value.image.dropped = 0)
    (hword : program.layout[offset]? = some word) :
    (config.firstAddress + offset, word) ∈ (assemble program config).value.image.loaded ∧
      config.addressAfter offset = config.firstAddress + offset := by
  have hlength := length_layout_le_of_dropped_eq_zero hfits
  have hlt : offset < program.layout.length := (List.getElem?_eq_some_iff.1 hword).1
  have haddress : config.addressAfter offset = config.firstAddress + offset := by
    rw [Config.addressAfter, Nat.min_eq_right (by omega)]
  refine ⟨?_, haddress⟩
  rw [← haddress]
  exact mem_loaded_of_getElem?_layout hword (by omega)

/-- The image of a program that fits is its code and its data. -/
theorem take_drop_words_of_dropped_eq_zero {program : FirstPass} {config : Config}
    (h : (assemble program config).value.image.dropped = 0) :
    (assemble program config).value.image.words.toList.take (codeSize program.lines) =
        codeLayout program.lookup program.lines ∧
      (assemble program config).value.image.words.toList.drop (codeSize program.lines) =
        program.dataLayout := by
  rw [toList_words_of_dropped_eq_zero h, FirstPass.layout, ← length_codeLayout program.lookup]
  exact ⟨List.take_left, List.drop_left⟩

/-! ## Assembling is laying out -/

/-- **Assembling is laying out.** The final table says where each name lives, and the image holds
the layout of the program as far as the capacity goes, with every further word counted as
dropped. -/
theorem image_assemble_eq_layout (program : FirstPass) (config : Config) :
    (assemble program config).value.symbols.address? = program.lookup ∧
      (assemble program config).value.image =
        { words := (program.layout.take config.usableCapacity).toArray
          capacity := config.usableCapacity
          firstAddress := config.firstAddress
          overflow := config.overflow
          dropped := program.layout.length - config.usableCapacity } := by
  refine ⟨?_, ?_⟩
  · rw [symbols_assemble, address?_relocate]
  · have hwords := toList_words_assemble program config
    have hdropped := dropped_assemble program config
    rw [image_assemble] at hwords hdropped ⊢
    rw [← hwords, ← hdropped]
    rfl

/-- A program that uses every kind of operand, with a label of each kind. -/
def sampleProgram : FirstPass where
  symbols := ⟨[⟨"MAIN", .code 100⟩, ⟨"LIST", .data 1⟩, ⟨"EXT", .external 17⟩], by decide⟩
  lines :=
    [ { number := 1, text := "MAIN: mov LIST[2], r3", opcode? := some .mov
        source := { operand := .indexed { name := "LIST" } 2 }
        dest := { operand := .register 3 } },
      { number := 2, text := "jsr EXT", opcode? := some .jsr
        dest := { operand := .direct { name := "EXT" } } },
      { number := 3, text := "cmp MAIN, EXT", opcode? := some .cmp
        source := { operand := .direct { name := "MAIN" } }
        dest := { operand := .direct { name := "EXT" } } },
      { number := 4, text := "mov r1, r6", opcode? := some .mov
        source := { operand := .register 1 }
        dest := { operand := .register 6 } },
      { number := 5, text := "prn #-5", opcode? := some .prn
        dest := { operand := .immediate (-5) } },
      { number := 6, text := "hlt", opcode? := some .hlt },
      { number := 7, text := "LIST: .data 7, -1" } ]
  instructionCount := 114
  data := [7, -1, 3]
  dataCount := 2
  entries := [⟨8, "LIST"⟩, ⟨9, "MAIN"⟩]

example : (sampleProgram.layout.map Word.value) =
    [0x2C, 0x1CE, 0x8, 0xC, 0x344, 0x45, 0x54, 0x192, 0x45, 0x3C, 0x38, 0x300, 0x3FEC, 0x3C0, 7,
      0x3FFF] := by decide

end SecondPass
