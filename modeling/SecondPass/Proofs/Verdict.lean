import SecondPass.Proofs.Emission
import SecondPass.Proofs.Faults

/-!
# The verdict

The error count is the only verdict on a program. `FirstPass.IsSound` says what a program needs to
deserve a good one, without running anything: its entries name labels of the module, its operands
name registers and labels that there are, and its words fit the image. Where lack of room is an
error, the verdict is good exactly if the program is sound, and then the assembly is complete
(`Assembly.IsComplete`): nothing is flagged, unresolved or dropped.
-/

namespace SecondPass

/-! ## Sound programs -/

/-- A program is sound under settings when a run has nothing to complain about. -/
structure FirstPass.IsSound (program : FirstPass) (config : Config) : Prop where
  /-- Every entry names a label of the module. -/
  entries : ∀ entry ∈ program.entries, ∃ address,
    program.symbols.address? entry.name = some address ∧ address.isExternal = false
  /-- Every register of an instruction is one that the machine has. -/
  registers : ∀ line ∈ program.lines, line.opcode?.isSome = true → ∀ position number,
    (line.slot position).operand = .register number →
      number < min config.registerCount registerLimit
  /-- Every label of an instruction is in the table. -/
  labels : ∀ line ∈ program.lines, line.opcode?.isSome = true → ∀ position label,
    (line.slot position).operand.label? = some label → label.name ∈ program.symbols.names
  /-- The image has room for all words. -/
  fits : program.size ≤ config.usableCapacity

/-! ## What is not bad -/

/-- An entry is legal exactly if it names a label of the module. -/
theorem Entry.isIllegal_eq_false_iff {symbols : SymbolTable .pending} {entry : Entry} :
    entry.isIllegal symbols = false ↔
      ∃ address, symbols.address? entry.name = some address ∧ address.isExternal = false := by
  unfold isIllegal
  cases symbols.address? entry.name <;> simp

theorem Operand.isBad_eq_false_iff {names : List String} {config : Config} {operand : Operand} :
    operand.isBad names config = false ↔
      (∀ number, operand = .register number → number < min config.registerCount registerLimit) ∧
        ∀ label, operand.label? = some label → label.name ∈ names := by
  cases operand with
  | absent => simp [isBad, label?]
  | immediate value => simp [isBad, label?]
  | direct label => simp [isBad, label?]
  | indexed label index => simp [isBad, label?]
  | register number =>
    rw [isBad, decide_eq_false_iff_not, Nat.not_le]
    simp [label?]

/-- A line is bad exactly if it has an instruction, is not flagged, and has a bad operand. -/
theorem Line.isBad_iff {names : List String} {config : Config} {line : Line} :
    line.isBad names config = true ↔ line.opcode?.isSome = true ∧ line.flagged = false ∧
      ∃ position, (line.slot position).operand.isBad names config = true := by
  have hslots : (line.slots.any fun slot => slot.operand.isBad names config) = true ↔
      ∃ position, (line.slot position).operand.isBad names config = true := by
    rw [List.any_eq_true]
    constructor
    · rintro ⟨slot, hslot, hbad⟩
      obtain ⟨position, rfl⟩ := mem_slots_iff.1 hslot
      exact ⟨position, hbad⟩
    · rintro ⟨position, hbad⟩
      exact ⟨line.slot position, mem_slots_iff.2 ⟨position, rfl⟩, hbad⟩
  rw [isBad, isEncodable, Bool.and_eq_true, Bool.and_eq_true, Bool.not_eq_true', and_assoc, hslots]

theorem Line.isBad_eq_false_iff {names : List String} {config : Config} {line : Line}
    (hflagged : line.flagged = false) :
    line.isBad names config = false ↔ (line.opcode?.isSome = true → ∀ position,
      (line.slot position).operand.isBad names config = false) := by
  rw [← Bool.not_eq_true, isBad_iff]
  simp [hflagged]

/-- No line of a program is bad exactly if its operands name registers and labels that there
are. -/
theorem isBad_eq_false_iff {program : FirstPass} {config : Config}
    (hflagged : ∀ line ∈ program.lines, line.flagged = false) :
    (∀ line ∈ program.lines, line.isBad program.symbols.names config = false) ↔
      (∀ line ∈ program.lines, line.opcode?.isSome = true → ∀ position number,
          (line.slot position).operand = .register number →
            number < min config.registerCount registerLimit) ∧
        ∀ line ∈ program.lines, line.opcode?.isSome = true → ∀ position label,
          (line.slot position).operand.label? = some label →
            label.name ∈ program.symbols.names := by
  constructor
  · intro h
    have hoperand : ∀ line ∈ program.lines, line.opcode?.isSome = true → ∀ position,
        (line.slot position).operand.isBad program.symbols.names config = false :=
      fun line hline => (Line.isBad_eq_false_iff (hflagged line hline)).1 (h line hline)
    refine ⟨?_, ?_⟩
    · intro line hline hopcode position
      exact (Operand.isBad_eq_false_iff.1 (hoperand line hline hopcode position)).1
    · intro line hline hopcode position
      exact (Operand.isBad_eq_false_iff.1 (hoperand line hline hopcode position)).2
  · rintro ⟨hregisters, hlabels⟩ line hline
    rw [Line.isBad_eq_false_iff (hflagged line hline)]
    intro hopcode position
    rw [Operand.isBad_eq_false_iff]
    exact ⟨hregisters line hline hopcode position, hlabels line hline hopcode position⟩

/-! ## A good verdict -/

/-- Nothing is counted exactly if no entry is illegal, no line is bad and no lack of room is an
error. -/
theorem errorCount_eq_zero_iff {program : FirstPass} {config : Config} :
    (assemble program config).value.errorCount = 0 ↔
      (∀ entry ∈ program.entries, entry.isIllegal program.symbols = false) ∧
        (∀ line ∈ program.lines, line.isBad program.symbols.names config = false) ∧
        (config.overflow = .reject → program.size ≤ config.usableCapacity) := by
  have hentries := funext (Entry.isSome_problem?_eq program)
  have hlines := funext (Line.fails_eq program config)
  have hroom : (reportOverflow config.overflow (assemble program config).value.image).value = 0 ↔
      (config.overflow = .reject → program.size ≤ config.usableCapacity) := by
    rw [value_reportOverflow, dropped_assemble, length_layout]
    constructor
    · intro h hreject
      have hnone : ¬ 0 < program.size - config.usableCapacity := by
        intro hdropped
        rw [if_pos ⟨hreject, hdropped⟩] at h
        exact absurd h Nat.one_ne_zero
      omega
    · intro h
      rw [if_neg]
      rintro ⟨hreject, hdropped⟩
      have hfits := h hreject
      omega
  rw [errorCount_assemble, hentries, hlines, Nat.add_eq_zero_iff, Nat.add_eq_zero_iff,
    List.countP_eq_zero, List.countP_eq_zero, hroom, and_assoc]
  simp only [Bool.not_eq_true]

theorem isOk_iff_errorCount {assembly : Assembly} :
    assembly.isOk = true ↔ assembly.errorCount = 0 := by
  rw [Assembly.isOk, beq_iff_eq]

/-- A program without flagged lines gets a good verdict exactly if it is sound, where lack of room
is an error. -/
theorem isOk_iff_of_unflagged {program : FirstPass} {config : Config}
    (hflagged : ∀ line ∈ program.lines, line.flagged = false)
    (hreject : config.overflow = .reject) :
    (assemble program config).value.isOk = true ↔ program.IsSound config := by
  rw [isOk_iff_errorCount, errorCount_eq_zero_iff, isBad_eq_false_iff hflagged]
  simp only [Entry.isIllegal_eq_false_iff, hreject, true_implies]
  constructor
  · rintro ⟨hentries, ⟨hregisters, hlabels⟩, hfits⟩
    exact ⟨hentries, hregisters, hlabels, hfits⟩
  · rintro ⟨hentries, hregisters, hlabels, hfits⟩
    exact ⟨hentries, ⟨hregisters, hlabels⟩, hfits⟩

/-! ## Complete assemblies -/

/-- An assembly of a program is complete when nothing is flagged, unresolved or dropped. -/
structure Assembly.IsComplete (assembly : Assembly) (program : FirstPass) : Prop where
  unflagged : ∀ line ∈ assembly.lines, line.flagged = false
  /-- Every label of an instruction has the address of its name in the final table. -/
  resolved : ∀ (i : Nat) (line : Line), program.lines[i]? = some line →
    line.opcode?.isSome = true → ∀ (position : Position) (label : LabelRef),
      (line.slot position).operand.label? = some label →
      ∃ (placed : Line) (address : Address), assembly.lines[i]? = some placed ∧
        assembly.symbols.address? label.name = some address ∧
        (placed.slot position).operand.label? = some { label with resolved := some address }
  dropped_eq : assembly.image.dropped = 0
  size_eq : assembly.image.size = program.size
  /-- Every word of code has a tag. -/
  tagged : ∀ word ∈ assembly.image.words.toList.take (codeSize program.lines),
    word.era?.isSome = true

/-- A line is flagged after it was encoded if it was so before, or if it fails. -/
theorem Line.flagged_place (lookup : String → Option Address) (config : Config)
    (address : Nat → Nat) (line : Line) :
    (line.place lookup config address).flagged = (line.flagged || line.fails lookup config) := by
  unfold place
  cases hline : line.isEncodable with
  | false => simp [fails, hline]
  | true =>
    obtain ⟨-, -, hflagged⟩ := isEncodable_iff.1 hline
    cases line.isRegisterPair <;> simp [hflagged]

theorem LabelRef.isSome_era?_layout (lookup : String → Option Address) (label : LabelRef) :
    (label.layout lookup).era?.isSome = true := by
  have hword : ∀ address : Address, address.word.era?.isSome = true := by
    intro address
    cases address <;> simp [Address.word]
  unfold layout
  split
  · exact hword _
  · exact hword _
  · simp

/-- Every word of code has a tag, whatever its labels resolve to. -/
theorem isSome_era?_of_mem_codeLayout {lookup : String → Option Address} {lines : List Line}
    {word : Word} (h : word ∈ codeLayout lookup lines) : word.era?.isSome = true := by
  obtain ⟨offset, hword⟩ := List.mem_iff_getElem?.1 h
  by_cases hera : word.era? = some .absolute
  · rw [hera]
    rfl
  · obtain ⟨label, huse⟩ := exists_labelUse_of_era?_ne hword hera
    rw [getElem?_codeLayout_of_mem_labelUses huse] at hword
    rw [← Option.some.inj hword]
    exact label.isSome_era?_layout lookup

section Complete

variable {program : FirstPass} {config : Config}

/-- Where no line is flagged or bad before a run, none is flagged after it. -/
theorem flagged_eq_false_of_mem_lines
    (hflagged : ∀ line ∈ program.lines, line.flagged = false)
    (hbad : ∀ line ∈ program.lines, line.isBad program.symbols.names config = false)
    {placed : Line} (h : placed ∈ (assemble program config).value.lines) :
    placed.flagged = false := by
  obtain ⟨i, hi⟩ := List.mem_iff_getElem?.1 h
  rw [lines_assemble, getElem?_placeLines, Option.map_eq_some_iff] at hi
  obtain ⟨line, hline, rfl⟩ := hi
  have hmem := List.mem_of_getElem? hline
  rw [Line.flagged_place, Line.fails_eq, hflagged line hmem, hbad line hmem]
  rfl

/-- A label that is in the table has the address of its name after a run. -/
theorem resolved_of_mem_names {i : Nat} {line : Line} (hi : program.lines[i]? = some line)
    (hline : line.isEncodable = true) {position : Position} {label : LabelRef}
    (hlabel : (line.slot position).operand.label? = some label)
    (hname : label.name ∈ program.symbols.names) :
    ∃ placed address, (assemble program config).value.lines[i]? = some placed ∧
      (assemble program config).value.symbols.address? label.name = some address ∧
      (placed.slot position).operand.label? = some { label with resolved := some address } := by
  obtain ⟨address, haddress⟩ := Option.isSome_iff_exists.1 (isSome_lookup_iff.2 hname)
  obtain ⟨placed, hplaced⟩ := exists_placed hi config
  refine ⟨placed, address, hplaced, ?_, ?_⟩
  · rw [symbols_assemble, address?_relocate, haddress]
  · rw [operand_assemble_slot hi hplaced hline, Operand.label?_settle, hlabel, Option.map_some,
      LabelRef.settle, haddress, Option.some_or]

end Complete

/-- **The verdict can be trusted.** Take a program whose lines are not flagged, and settings under
which lack of room is an error. The verdict is good if and only if the program is sound, and if it
is good the assembly is complete: no line is flagged, every label has the address of its name in the
final table, no word was dropped, the image holds exactly the words of the program, and every word
of its code has a tag. -/
theorem isOk_iff_isSound (program : FirstPass) (config : Config)
    (hflagged : ∀ line ∈ program.lines, line.flagged = false)
    (hreject : config.overflow = .reject) :
    ((assemble program config).value.isOk = true ↔ program.IsSound config) ∧
      ((assemble program config).value.isOk = true →
        (assemble program config).value.IsComplete program) := by
  refine ⟨isOk_iff_of_unflagged hflagged hreject, ?_⟩
  intro hok
  have hsound := (isOk_iff_of_unflagged hflagged hreject).1 hok
  have hbad := (isBad_eq_false_iff hflagged).2 ⟨hsound.registers, hsound.labels⟩
  have hdropped : (assemble program config).value.image.dropped = 0 := by
    rw [dropped_assemble, length_layout]
    exact Nat.sub_eq_zero_of_le hsound.fits
  refine ⟨?_, ?_, hdropped, ?_, ?_⟩
  · intro placed hplaced
    exact flagged_eq_false_of_mem_lines hflagged hbad hplaced
  · intro i line hi hopcode position label hlabel
    have hmem := List.mem_of_getElem? hi
    have hline : line.isEncodable = true := by
      rw [Line.isEncodable, hopcode, hflagged line hmem]
      rfl
    exact resolved_of_mem_names hi hline hlabel
      (hsound.labels line hmem hopcode position label hlabel)
  · rw [size_assemble, Nat.min_eq_right hsound.fits]
  · intro word hword
    rw [(take_drop_words_of_dropped_eq_zero hdropped).1] at hword
    exact isSome_era?_of_mem_codeLayout hword

/-- The sample has sixteen words. With room for all of them it is sound and its assembly complete;
with room for fifteen it is refused for the last word of its data, and with six registers for its
use of `r6`. -/
theorem isOk_iff_isSound_sampleProgram :
    (∀ line ∈ sampleProgram.lines, line.flagged = false) ∧
      sampleProgram.IsSound { capacity := 16, overflow := .reject } ∧
      (assemble sampleProgram { capacity := 16, overflow := .reject }).value.IsComplete
        sampleProgram ∧
      ¬ sampleProgram.IsSound { capacity := 15, overflow := .reject } ∧
      ¬ sampleProgram.IsSound { registerCount := 6, overflow := .reject } := by
  have hflagged : ∀ line ∈ sampleProgram.lines, line.flagged = false := by decide
  have hverdict := fun config hreject => isOk_iff_isSound sampleProgram config hflagged hreject
  obtain ⟨hsound, hcomplete⟩ := hverdict { capacity := 16, overflow := .reject } rfl
  refine ⟨hflagged, hsound.1 rfl, hcomplete rfl, ?_, ?_⟩
  · rw [← (hverdict { capacity := 15, overflow := .reject } rfl).1]
    decide
  · rw [← (hverdict { registerCount := 6, overflow := .reject } rfl).1]
    decide

end SecondPass
