import SecondPass.Proofs.Uses

/-!
# Emission addresses

A slot remembers where the first word of its operand went. That place is known from the shapes of
the lines alone: which lines make words, and what modes their operands have. Whether a name is
found and what value an operand has moves nothing, so a line with a fault takes the space that it
would have taken without one.

`Line.emittedAt_place` says what one line remembers, `emittedAt_assemble_slot` what every line of
a program does, and `emissions_eq_of_shape` that shapes decide it.
-/

namespace SecondPass

/-! ## Shapes -/

/-- What decides how many words a line makes and where they go. -/
structure LineShape where
  isEncodable : Bool
  source : Option AddressingMode
  dest : Option AddressingMode
  deriving DecidableEq, Repr

/-- The shape of a line. -/
def Line.shape (line : Line) : LineShape :=
  ⟨line.isEncodable, line.source.operand.mode?, line.dest.operand.mode?⟩

/-- The addresses that the slots of a line remember. -/
def Line.emissions (line : Line) : List (Option Nat) := line.slots.map Slot.emittedAt

/-- Whether the operand in a position has words of its own: it is there, its line makes words, and
it is not one of two registers. -/
def Line.ownsWords (line : Line) (position : Position) : Bool :=
  line.isEncodable && !line.isRegisterPair && (line.slot position).operand.isPresent

theorem Line.ownsWords_iff {line : Line} {position : Position} :
    line.ownsWords position = true ↔ line.isEncodable = true ∧ line.isRegisterPair = false ∧
      (line.slot position).operand.isPresent = true := by
  simp [ownsWords, and_assoc]

theorem Line.ownsWords_of_label? {line : Line} {position : Position} {label : LabelRef}
    (hline : line.isEncodable = true) (hlabel : (line.slot position).operand.label? = some label) :
    line.ownsWords position = true :=
  ownsWords_iff.2
    ⟨hline, isRegisterPair_of_label? hlabel, Operand.isPresent_of_label? hlabel⟩

/-- The number of words of an operand, by its mode. -/
def modeSize : Option AddressingMode → Nat
  | none => 0
  | some .indexed => 2
  | some _ => 1

namespace Operand

theorem size_eq_modeSize (operand : Operand) : operand.size = modeSize operand.mode? := by
  cases operand <;> rfl

theorem isPresent_eq_isSome_mode? (operand : Operand) :
    operand.isPresent = operand.mode?.isSome := by
  cases operand <;> rfl

end Operand

namespace Line

variable {line other : Line}

theorem mode?_eq_of_shape (h : line.shape = other.shape) (position : Position) :
    (line.slot position).operand.mode? = (other.slot position).operand.mode? := by
  cases position with
  | source => exact congrArg LineShape.source h
  | dest => exact congrArg LineShape.dest h

theorem isRegisterPair_eq_of_shape (h : line.shape = other.shape) :
    line.isRegisterPair = other.isRegisterPair := by
  have hsource : line.source.operand.mode? = other.source.operand.mode? :=
    mode?_eq_of_shape h .source
  have hdest : line.dest.operand.mode? = other.dest.operand.mode? := mode?_eq_of_shape h .dest
  simp only [isRegisterPair, Operand.isSome_register?_eq, hsource, hdest]

theorem operandOffset_eq_of_shape (h : line.shape = other.shape) (position : Position) :
    line.operandOffset position = other.operandOffset position := by
  have hsource : line.source.operand.mode? = other.source.operand.mode? :=
    mode?_eq_of_shape h .source
  cases position with
  | source => rfl
  | dest => simp only [operandOffset, Operand.size_eq_modeSize, hsource]

theorem ownsWords_eq_of_shape (h : line.shape = other.shape) (position : Position) :
    line.ownsWords position = other.ownsWords position := by
  have hline : line.isEncodable = other.isEncodable := congrArg LineShape.isEncodable h
  simp only [ownsWords, hline, isRegisterPair_eq_of_shape h, Operand.isPresent_eq_isSome_mode?,
    mode?_eq_of_shape h position]

/-- Lines of the same shape make the same number of words. -/
theorem size_eq_of_shape (h : line.shape = other.shape) : line.size = other.size := by
  have hline : line.isEncodable = other.isEncodable := congrArg LineShape.isEncodable h
  have hsource : line.source.operand.mode? = other.source.operand.mode? :=
    mode?_eq_of_shape h .source
  have hdest : line.dest.operand.mode? = other.dest.operand.mode? := mode?_eq_of_shape h .dest
  simp only [size, hline, isRegisterPair_eq_of_shape h, Operand.size_eq_modeSize, hsource, hdest]

end Line

theorem codeSize_eq_of_shape {lines others : List Line}
    (h : lines.map Line.shape = others.map Line.shape) : codeSize lines = codeSize others := by
  induction lines generalizing others with
  | nil =>
    have hnil : others = [] := by simpa using h.symm
    rw [hnil]
  | cons line rest ih =>
    cases others with
    | nil => simp at h
    | cons other others =>
      obtain ⟨hline, hrest⟩ := List.cons.inj h
      rw [codeSize_cons, codeSize_cons, Line.size_eq_of_shape hline, ih hrest]

/-! ## What a slot remembers -/

/-- What the slot in a position remembers once its line was encoded. -/
def Line.emission (address : Nat → Nat) (line : Line) (position : Position) : Option Nat :=
  if line.ownsWords position then some (address (line.operandOffset position))
  else (line.slot position).emittedAt

/-- An operand with words of its own remembers where they start, and any other slot remembers what
it did before. -/
theorem Line.emittedAt_place (lookup : String → Option Address) (config : Config)
    (address : Nat → Nat) (line : Line) (position : Position) :
    ((line.place lookup config address).slot position).emittedAt =
      line.emission address position := by
  unfold emission ownsWords
  cases hline : line.isEncodable with
  | false => simp [place, hline]
  | true =>
    cases hpair : line.isRegisterPair with
    | true =>
      rw [place, if_pos hline, if_pos hpair]
      cases position <;> rfl
    | false =>
      rw [slot_place hline hpair, Slot.place]
      rfl

/-- The lines of an assembled program remember places counted from the first line. -/
theorem emittedAt_assemble_slot {program : FirstPass} {config : Config} {i : Nat}
    {line placed : Line} (hi : program.lines[i]? = some line)
    (hplaced : (assemble program config).value.lines[i]? = some placed) (position : Position) :
    (placed.slot position).emittedAt = line.emission
      (fun count => config.addressAfter (codeSize (program.lines.take i) + count)) position := by
  rw [eq_place_of_getElem? hi hplaced, Line.emittedAt_place]

/-- The operands of an encoded line are settled. -/
theorem operand_assemble_slot {program : FirstPass} {config : Config} {i : Nat}
    {line placed : Line} (hi : program.lines[i]? = some line)
    (hplaced : (assemble program config).value.lines[i]? = some placed)
    (hline : line.isEncodable = true) {position : Position} :
    (placed.slot position).operand = (line.slot position).operand.settle program.lookup := by
  rw [eq_place_of_getElem? hi hplaced, Line.operand_place hline]

/-- Each line of a program has its line in the assembled program. -/
theorem exists_placed {program : FirstPass} {i : Nat} {line : Line}
    (hi : program.lines[i]? = some line) (config : Config) :
    ∃ placed, (assemble program config).value.lines[i]? = some placed := by
  rw [lines_assemble, getElem?_placeLines, hi]
  exact ⟨_, rfl⟩

/-- Lines of the same shape that remember the same before they are encoded remember the same
after. -/
theorem Line.emission_eq_of_shape {line other : Line} (hshape : line.shape = other.shape)
    (hemissions : line.emissions = other.emissions) (address : Nat → Nat)
    (position : Position) : line.emission address position = other.emission address position := by
  have hbefore : (line.slot position).emittedAt = (other.slot position).emittedAt := by
    obtain ⟨hsource, hdest⟩ : line.source.emittedAt = other.source.emittedAt ∧
        line.dest.emittedAt = other.dest.emittedAt := by
      simpa [emissions, slots] using hemissions
    cases position with
    | source => exact hsource
    | dest => exact hdest
  rw [emission, emission, ownsWords_eq_of_shape hshape, operandOffset_eq_of_shape hshape, hbefore]

/-! ## The words in these places -/

theorem Operand.getElem?_words_zero {operand : Operand} (h : operand.isPresent = true)
    (position : Position) : (operand.words position)[0]? = some (operand.word position) := by
  cases operand with
  | absent => simp [isPresent] at h
  | _ => rfl

theorem Operand.length_words (operand : Operand) (position : Position) :
    (operand.words position).length = operand.size := by
  cases operand <;> rfl

theorem Operand.size_settle (lookup : String → Option Address) (operand : Operand) :
    (operand.settle lookup).size = operand.size := by
  cases operand <;> rfl

/-- The words of an operand are stored in its place, as far as there is room. -/
theorem mem_loaded_of_ownsWords {program : FirstPass} {config : Config} {i : Nat}
    {line placed : Line} (hi : program.lines[i]? = some line)
    (hplaced : (assemble program config).value.lines[i]? = some placed) {position : Position}
    (howns : line.ownsWords position = true) {j : Nat} {word : Word}
    (hword : ((placed.slot position).operand.words position)[j]? = some word)
    (hroom : codeSize (program.lines.take i) + line.operandOffset position + j <
      config.usableCapacity) :
    (config.firstAddress + (codeSize (program.lines.take i) + line.operandOffset position + j),
      word) ∈ (assemble program config).value.image.loaded := by
  obtain ⟨hline, hpair, -⟩ := Line.ownsWords_iff.1 howns
  rw [operand_assemble_slot hi hplaced hline] at hword
  -- settling keeps the number of words, so the place lies inside the line
  have hj : j < (line.slot position).operand.size := by
    rw [← Operand.size_settle program.lookup, ← Operand.length_words _ position]
    exact (List.getElem?_eq_some_iff.1 hword).1
  rw [Operand.words_settle, ← Line.getElem?_layout_operandOffset_add hline hpair _ hj,
    ← getElem?_codeLayout program.lookup hi (Line.operandOffset_add_lt_size hline hpair hj),
    ← Nat.add_assoc] at hword
  have hlayout : program.layout[codeSize (program.lines.take i) +
      line.operandOffset position + j]? = some word := by
    rw [FirstPass.layout, List.getElem?_append_left (List.getElem?_eq_some_iff.1 hword).1, hword]
  have hmem := mem_loaded_of_getElem?_layout hlayout hroom
  rwa [Config.addressAfter, Nat.min_eq_right (Nat.le_of_lt hroom)] at hmem

/-- The word of an operand is stored in its place if there is room. -/
theorem word_mem_loaded_of_ownsWords {program : FirstPass} {config : Config} {i : Nat}
    {line placed : Line} (hi : program.lines[i]? = some line)
    (hplaced : (assemble program config).value.lines[i]? = some placed) {position : Position}
    (howns : line.ownsWords position = true)
    (hroom : codeSize (program.lines.take i) + line.operandOffset position <
      config.usableCapacity) :
    (config.firstAddress + (codeSize (program.lines.take i) + line.operandOffset position),
      (placed.slot position).operand.word position) ∈
        (assemble program config).value.image.loaded := by
  have hpresent : (placed.slot position).operand.isPresent = true := by
    obtain ⟨hline, -, hpresent⟩ := Line.ownsWords_iff.1 howns
    rwa [operand_assemble_slot hi hplaced hline, Operand.isPresent_settle]
  exact mem_loaded_of_ownsWords hi hplaced howns
    (Operand.getElem?_words_zero hpresent position) hroom

/-! ## Shapes decide emission addresses -/

/-- Programs of the same shapes that remember the same before they are assembled remember the same
after: the places of their lines agree one by one. -/
theorem emissions_eq_of_shape {program other : FirstPass}
    (hshape : other.lines.map Line.shape = program.lines.map Line.shape)
    (hemissions : other.lines.map Line.emissions = program.lines.map Line.emissions)
    (config : Config) :
    (assemble other config).value.lines.map Line.emissions =
      (assemble program config).value.lines.map Line.emissions := by
  apply List.ext_getElem?
  intro i
  rw [List.getElem?_map, List.getElem?_map]
  have hshapeAt : (other.lines[i]?).map Line.shape = (program.lines[i]?).map Line.shape := by
    rw [← List.getElem?_map, hshape, List.getElem?_map]
  have hemissionsAt : (other.lines[i]?).map Line.emissions =
      (program.lines[i]?).map Line.emissions := by
    rw [← List.getElem?_map, hemissions, List.getElem?_map]
  cases hother : other.lines[i]? with
  | none =>
    have hline : program.lines[i]? = none := by simpa [hother] using hshapeAt.symm
    simp [lines_assemble, getElem?_placeLines, hother, hline]
  | some first =>
    rw [hother] at hshapeAt hemissionsAt
    obtain ⟨second, hsecond, hshapeLine⟩ := Option.map_eq_some_iff.1 hshapeAt.symm
    rw [hsecond, Option.map_some, Option.map_some, Option.some.injEq] at hemissionsAt
    obtain ⟨placedFirst, hplacedFirst⟩ := exists_placed hother config
    obtain ⟨placedSecond, hplacedSecond⟩ := exists_placed hsecond config
    -- both lines count their places from behind lines of the same shapes
    have hbefore : codeSize (other.lines.take i) = codeSize (program.lines.take i) := by
      apply codeSize_eq_of_shape
      rw [List.map_take, List.map_take, hshape]
    have hslot : ∀ position,
        (placedFirst.slot position).emittedAt = (placedSecond.slot position).emittedAt := by
      intro position
      rw [emittedAt_assemble_slot hother hplacedFirst,
        emittedAt_assemble_slot hsecond hplacedSecond, hbefore,
        Line.emission_eq_of_shape hshapeLine.symm hemissionsAt]
    rw [hplacedFirst, hplacedSecond, Option.map_some, Option.map_some]
    show some [(placedFirst.slot .source).emittedAt, (placedFirst.slot .dest).emittedAt] =
      some [(placedSecond.slot .source).emittedAt, (placedSecond.slot .dest).emittedAt]
    rw [hslot .source, hslot .dest]

/-- **Emission addresses follow from shapes.** An operand with words of its own remembers its
place, counted in words of earlier lines and of its own line, or the end of the image if the image
is full before. If there is room its word is stored in that place, and the index of an indexed
operand behind it. Every other slot remembers what it did before. So programs that have the same
shapes and remember the same before they are assembled remember the same after. -/
theorem emission_addresses (program : FirstPass) (config : Config) :
    (∀ i line, program.lines[i]? = some line → ∃ placed,
        (assemble program config).value.lines[i]? = some placed ∧ ∀ position offset,
          offset = codeSize (program.lines.take i) + line.operandOffset position →
          (line.ownsWords position = true →
            (placed.slot position).emittedAt =
                some (config.firstAddress + min config.usableCapacity offset) ∧
              (offset < config.usableCapacity →
                (config.firstAddress + offset, (placed.slot position).operand.word position) ∈
                  (assemble program config).value.image.loaded) ∧
              ∀ label index, (placed.slot position).operand = .indexed label index →
                offset + 1 < config.usableCapacity →
                (config.firstAddress + (offset + 1), Word.index index) ∈
                  (assemble program config).value.image.loaded) ∧
          (line.ownsWords position = false →
            (placed.slot position).emittedAt = (line.slot position).emittedAt)) ∧
      ∀ other : FirstPass, other.lines.map Line.shape = program.lines.map Line.shape →
        other.lines.map Line.emissions = program.lines.map Line.emissions →
        (assemble other config).value.lines.map Line.emissions =
          (assemble program config).value.lines.map Line.emissions := by
  refine ⟨?_, fun other hshape hemissions => emissions_eq_of_shape hshape hemissions config⟩
  intro i line hi
  obtain ⟨placed, hplaced⟩ := exists_placed hi config
  refine ⟨placed, hplaced, ?_⟩
  rintro position offset rfl
  have hemitted := emittedAt_assemble_slot hi hplaced position
  refine ⟨?_, ?_⟩
  · intro howns
    rw [Line.emission, if_pos howns] at hemitted
    refine ⟨hemitted, word_mem_loaded_of_ownsWords hi hplaced howns, ?_⟩
    intro label index hindexed hroom
    have hword : ((placed.slot position).operand.words position)[1]? =
        some (Word.index index) := by
      rw [hindexed]
      rfl
    exact mem_loaded_of_ownsWords hi hplaced howns hword hroom
  · intro howns
    rwa [Line.emission, if_neg (by simp [howns])] at hemitted

/-- With room for eight words the sample is cut inside its third line. A program of the same shapes
in which no name is found and every opcode is another one remembers the same addresses. -/
theorem emission_addresses_sampleProgram :
    (∃ placed, (assemble sampleProgram { capacity := 8 }).value.lines[2]? = some placed ∧
        placed.source.emittedAt = some 107 ∧ placed.dest.emittedAt = some 108 ∧
        (107, placed.source.operand.word .source) ∈
          (assemble sampleProgram { capacity := 8 }).value.image.loaded) ∧
      (assemble { sampleProgram with
          symbols := .empty
          lines := sampleProgram.lines.map fun line =>
            { line with opcode? := line.opcode?.map fun _ => .clr } }
        { capacity := 8 }).value.lines.map Line.emissions =
        (assemble sampleProgram { capacity := 8 }).value.lines.map Line.emissions := by
  obtain ⟨hslots, hshapes⟩ := emission_addresses sampleProgram { capacity := 8 }
  obtain ⟨placed, hplaced, hslot⟩ := hslots 2 _ rfl
  obtain ⟨hsource, hstored, -⟩ := (hslot .source 7 rfl).1 rfl
  obtain ⟨hdest, -⟩ := (hslot .dest 8 rfl).1 rfl
  exact ⟨⟨placed, hplaced, hsource, hdest, hstored (by decide)⟩, hshapes _ rfl rfl⟩

end SecondPass
