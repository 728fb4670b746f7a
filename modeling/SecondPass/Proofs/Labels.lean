import SecondPass.Proofs.Emission
import SecondPass.Proofs.LoadAddresses

/-!
# Local labels

A local label names a word of its own module: a value of the data segment, or the instruction of a
line (`FirstPass.Names`). When the program fits and the first pass has counted its words right, the
word is loaded where the final table says, and every operand with the label holds that address in
full.
-/

namespace SecondPass

/-- The word that an address of the first pass stands for, and where that word is loaded. Data come
right after the code, and the instruction of a line comes after all words of earlier lines. -/
inductive FirstPass.Names (program : FirstPass) (config : Config) :
    Address → Nat → Word → Prop
  | data {k : Nat} {value : Int32} (hcount : k < program.dataCount)
      (hvalue : program.data[k]? = some value) :
      program.Names config (.data k) (program.instructionCount + k) (.data value)
  | code {i : Nat} {line : Line} {opcode : Opcode} (hline : program.lines[i]? = some line)
      (hopcode : line.opcode? = some opcode) (hflagged : line.flagged = false) :
      program.Names config (.code (config.firstAddress + codeSize (program.lines.take i)))
        (config.firstAddress + codeSize (program.lines.take i))
        (.instruction opcode line.source.operand.modeCode line.dest.operand.modeCode)

/-! ## Where labels live -/

/-- A name that stands for a word lives at the load address of the word, and its words are
relocatable. -/
theorem FirstPass.Names.lookup {program : FirstPass} {config : Config} {address : Address}
    {target : Nat} {word : Word} (h : program.Names config address target word)
    (htarget : target < UInt64.size) {name : String}
    (hname : program.symbols.address? name = some address) :
    ∃ final, program.lookup name = some final ∧ final.number = target ∧
      final.word = .tagged .relocatable (BitVec.ofNat 12 target) := by
  unfold FirstPass.lookup
  rw [hname]
  cases h with
  | @data k value hcount hvalue =>
    have hsum : (k + program.instructionCount) % UInt64.size = program.instructionCount + k := by
      rw [Nat.add_comm, Nat.mod_eq_of_lt htarget]
    simp only [hsum]
    exact ⟨_, rfl, rfl, rfl⟩
  | code hline hopcode hflagged => exact ⟨_, rfl, rfl, rfl⟩

/-- The word that an address stands for is in the layout. -/
theorem FirstPass.Names.getElem?_layout {program : FirstPass} {config : Config}
    {address : Address} {target : Nat} {word : Word}
    (h : program.Names config address target word)
    (hcount : program.instructionCount = config.firstAddress + codeSize program.lines) :
    ∃ offset, program.layout[offset]? = some word ∧ target = config.firstAddress + offset := by
  unfold FirstPass.layout
  cases h with
  | @data k value hk hvalue =>
    refine ⟨codeSize program.lines + k, ?_, by omega⟩
    rw [List.getElem?_append_right (by rw [length_codeLayout]; omega), length_codeLayout,
      Nat.add_sub_cancel_left, FirstPass.dataLayout, List.getElem?_map,
      List.getElem?_take_of_lt hk, hvalue, Option.map_some]
  | @code i line opcode hline hopcode hflagged =>
    have hlayout := line.layout_of_isEncodable hopcode hflagged program.lookup
    have hpos : 0 < line.size := by
      rw [← line.length_layout program.lookup, hlayout]
      exact Nat.succ_pos _
    have hword := getElem?_codeLayout program.lookup hline hpos
    rw [hlayout, List.getElem?_cons_zero, Nat.add_zero] at hword
    refine ⟨codeSize (program.lines.take i), ?_, rfl⟩
    rw [List.getElem?_append_left (List.getElem?_eq_some_iff.1 hword).1, hword]

/-! ## Labels name their words -/

/-- **Labels name their words.** Let a program fit the image and let its first pass have counted
the words of its lines. Then a label that stands for a word has the load address of that word in
the final table, the word is stored there, and each operand with the label is stored as a
relocatable word with that load address as its payload, in the place that its slot remembers. -/
theorem labels_name_their_words (program : FirstPass) (config : Config)
    (hfits : (assemble program config).value.image.dropped = 0)
    (hcount : program.instructionCount = config.firstAddress + codeSize program.lines)
    {name : String} {address : Address} {target : Nat} {word : Word}
    (hname : program.symbols.address? name = some address)
    (hword : program.Names config address target word) :
    (∃ final, (assemble program config).value.symbols.address? name = some final ∧
        final.number = target) ∧
      (target, word) ∈ (assemble program config).value.image.loaded ∧
      ∀ i line position label, program.lines[i]? = some line → line.isEncodable = true →
        (line.slot position).operand.label? = some label → label.name = name →
        ∃ placed used, (assemble program config).value.lines[i]? = some placed ∧
          (placed.slot position).emittedAt = some (config.firstAddress +
            (codeSize (program.lines.take i) + line.operandOffset position)) ∧
          (config.firstAddress +
              (codeSize (program.lines.take i) + line.operandOffset position), used) ∈
            (assemble program config).value.image.loaded ∧
          used.era? = some .relocatable ∧ used.payload = target := by
  obtain ⟨offset, hoffset, htarget⟩ := hword.getElem?_layout hcount
  have hstored : (target, word) ∈ (assemble program config).value.image.loaded := by
    rw [htarget]
    exact (mem_loaded_of_dropped_eq_zero hfits hoffset).1
  -- a word that is stored has a load address of twelve bits, so the sum behind it cannot wrap
  have hspace : target < addressSpace :=
    (inRange_assemble program config).address_lt target word hstored
  have hbits : target < UInt64.size := Nat.lt_trans hspace (by decide)
  obtain ⟨final, hfinal, hnumber, hfinalWord⟩ := hword.lookup hbits hname
  refine ⟨⟨final, ?_, hnumber⟩, hstored, ?_⟩
  · rw [symbols_assemble, address?_relocate, hfinal]
  intro i line position label hi hline hlabel hlabelName
  have huse : (label, codeSize (program.lines.take i) + line.operandOffset position) ∈
      labelUses program.lines :=
    mem_labelUses_iff.2 ⟨i, line, position, hi, hline, hlabel, rfl⟩
  have husedWord := getElem?_layout_of_mem_labelUses huse
  rw [LabelRef.layout_of_lookup (hlabelName ▸ hfinal), hfinalWord] at husedWord
  obtain ⟨hused, haddress⟩ := mem_loaded_of_dropped_eq_zero hfits husedWord
  obtain ⟨placed, hplaced⟩ := exists_placed hi config
  refine ⟨placed, _, hplaced, ?_, hused, Word.era?_tagged _ _, ?_⟩
  · rw [emittedAt_assemble_slot hi hplaced, Line.emission,
      if_pos (Line.ownsWords_of_label? hline hlabel), haddress]
  · -- the payload is all of the load address
    rw [Word.payload_tagged, BitVec.toNat_ofNat]
    exact Nat.mod_eq_of_lt hspace

/-- The label `LIST` of the sample stands for the second value of its data. -/
theorem labels_name_their_words_sampleProgram :
    (assemble sampleProgram {}).value.image.dropped = 0 ∧
      sampleProgram.symbols.address? "LIST" = some (.data 1) ∧
      (115, Word.data (-1)) ∈ (assemble sampleProgram {}).value.image.loaded ∧
      ∃ placed used, (assemble sampleProgram {}).value.lines[0]? = some placed ∧
        placed.source.emittedAt = some 101 ∧
        (101, used) ∈ (assemble sampleProgram {}).value.image.loaded ∧
        used.era? = some .relocatable ∧ used.payload = 115 := by
  have hfits : (assemble sampleProgram {}).value.image.dropped = 0 := rfl
  have hname : sampleProgram.symbols.address? "LIST" = some (.data 1) := by decide
  have hword : sampleProgram.Names {} (.data 1) 115 (.data (-1)) :=
    .data (by decide) (by decide)
  obtain ⟨-, hstored, huses⟩ := labels_name_their_words sampleProgram {} hfits rfl hname hword
  exact ⟨hfits, hname, hstored, huses 0 _ .source _ rfl rfl rfl rfl⟩

end SecondPass
