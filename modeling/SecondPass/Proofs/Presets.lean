import SecondPass.Proofs.Verdict

/-!
# Preset annotations

The slots of a program have room for what a run finds out: the address that a label resolved to,
and the place of the first word of an operand. A program may come with both filled in, as the lines
of an earlier run do. `FirstPass.bare` takes these presets away, so two programs differ in presets
alone exactly if they have the same bare program.

What a run finds (`findings`) is the same for a program and its bare program. A preset address can
reach the image in one way only, as the word of a label that is not in the table. So where no line
fails, the image and the operands of encoded lines are the same as well (`image_assemble_bare`,
`Operand.settle_eq_of_bare_eq`).
-/

namespace SecondPass

/-! ## Bare programs -/

/-- A label without the address that it came with. -/
def LabelRef.bare (label : LabelRef) : LabelRef := { label with resolved := none }

/-- An operand whose label is bare. -/
def Operand.bare : Operand → Operand
  | direct label => direct label.bare
  | indexed label index => indexed label.bare index
  | operand => operand

/-- A slot with a bare operand that remembers no address. -/
def Slot.bare (slot : Slot) : Slot := ⟨slot.operand.bare, none⟩

/-- A line with bare slots. -/
def Line.bare (line : Line) : Line :=
  { line with source := line.source.bare, dest := line.dest.bare }

/-- A program with bare lines. -/
def FirstPass.bare (program : FirstPass) : FirstPass :=
  { program with lines := program.lines.map Line.bare }

/-! ## What presets cannot touch -/

namespace Operand

variable (lookup : String → Option Address) (config : Config) (operand : Operand)

@[simp] theorem mode?_bare : operand.bare.mode? = operand.mode? := by
  cases operand <;> rfl

@[simp] theorem modeCode_bare : operand.bare.modeCode = operand.modeCode := by
  cases operand <;> rfl

@[simp] theorem resolves_bare :
    operand.bare.resolves lookup config = operand.resolves lookup config := by
  cases operand <;> rfl

@[simp] theorem complaints_bare (line : Nat) :
    operand.bare.complaints lookup config line = operand.complaints lookup config line := by
  rw [complaints, complaints, resolves_bare]
  cases operand.resolves lookup config <;> cases operand <;> rfl

end Operand

namespace Line

variable (lookup : String → Option Address) (config : Config) (line : Line)

@[simp] theorem slot_bare (position : Position) :
    line.bare.slot position = (line.slot position).bare := by
  cases position <;> rfl

@[simp] theorem isEncodable_bare : line.bare.isEncodable = line.isEncodable := rfl

@[simp] theorem shape_bare : line.bare.shape = line.shape := by
  simp [shape, bare, Slot.bare, isEncodable]

@[simp] theorem isRegisterPair_bare : line.bare.isRegisterPair = line.isRegisterPair :=
  isRegisterPair_eq_of_shape line.shape_bare

@[simp] theorem fails_bare : line.bare.fails lookup config = line.fails lookup config := by
  simp [fails, bare, Slot.bare, isEncodable]

@[simp] theorem complaints_bare :
    line.bare.complaints lookup config = line.complaints lookup config := by
  simp [complaints, bare, Slot.bare, isEncodable]

end Line

theorem map_shape_bare (lines : List Line) :
    (lines.map Line.bare).map Line.shape = lines.map Line.shape := by
  simp [Function.comp_def]

namespace FirstPass

variable (program : FirstPass)

@[simp] theorem lines_bare : program.bare.lines = program.lines.map Line.bare := rfl

@[simp] theorem lookup_bare : program.bare.lookup = program.lookup := rfl

@[simp] theorem size_bare : program.bare.size = program.size := by
  have hcode : codeSize (program.lines.map Line.bare) = codeSize program.lines :=
    codeSize_eq_of_shape (map_shape_bare program.lines)
  rw [size, lines_bare, hcode]
  rfl

end FirstPass

/-! ## What a run finds -/

/-- What a run finds out about a program, apart from the words of the image and the slots of the
lines. -/
structure Findings where
  errorCount : Nat
  diagnostics : List Diagnostic
  size : Nat
  dropped : Nat
  entryExports : List (String × Nat)
  /-- Whether a fault was found, line by line. -/
  flags : List Bool
  deriving DecidableEq

/-- The findings of a run. -/
def findings (run : Logged Assembly) : Findings where
  errorCount := run.value.errorCount
  diagnostics := run.diagnostics
  size := run.value.image.size
  dropped := run.value.image.dropped
  entryExports := run.value.entryExports
  flags := run.value.lines.map Line.flagged

/-- A run flags the lines that fail and leaves the flags of all others. -/
theorem map_flagged_placeLines (lookup : String → Option Address) (config : Config)
    (address : Nat → Nat) (lines : List Line) :
    (placeLines lookup config address lines).map Line.flagged =
      lines.map fun line => line.flagged || line.fails lookup config := by
  induction lines generalizing address with
  | nil => rfl
  | cons line rest ih => rw [placeLines, List.map_cons, List.map_cons, Line.flagged_place, ih]

section Findings

variable (program : FirstPass) (config : Config)

theorem dropped_assemble_bare :
    (assemble program.bare config).value.image.dropped =
      (assemble program config).value.image.dropped := by
  rw [dropped_assemble, dropped_assemble, length_layout, length_layout, program.size_bare]

theorem errorCount_assemble_bare :
    (assemble program.bare config).value.errorCount =
      (assemble program config).value.errorCount := by
  have hlines : (program.lines.map Line.bare).countP (Line.fails program.lookup config) =
      program.lines.countP (Line.fails program.lookup config) := by
    rw [List.countP_map]
    exact congrArg (List.countP · program.lines) (funext (Line.fails_bare program.lookup config))
  rw [errorCount_assemble, errorCount_assemble, value_reportOverflow, value_reportOverflow,
    dropped_assemble_bare, program.lookup_bare, program.lines_bare, hlines]
  rfl

theorem diagnostics_assemble_bare :
    (assemble program.bare config).diagnostics = (assemble program config).diagnostics := by
  have hlines : (program.lines.map Line.bare).flatMap (Line.complaints program.lookup config) =
      program.lines.flatMap (Line.complaints program.lookup config) := by
    rw [List.flatMap_map]
    exact congrArg (List.flatMap · program.lines)
      (funext (Line.complaints_bare program.lookup config))
  have hcapacity : (assemble program.bare config).value.image.capacity =
      (assemble program config).value.image.capacity := by
    rw [image_assemble, image_assemble]
    rfl
  rw [diagnostics_assemble, diagnostics_assemble, diagnostics_reportOverflow,
    diagnostics_reportOverflow, dropped_assemble_bare, hcapacity, program.lookup_bare,
    program.lines_bare, hlines]
  rfl

theorem map_flagged_assemble_bare :
    (assemble program.bare config).value.lines.map Line.flagged =
      (assemble program config).value.lines.map Line.flagged := by
  rw [lines_assemble, lines_assemble, map_flagged_placeLines, map_flagged_placeLines,
    program.lookup_bare, program.lines_bare, List.map_map]
  apply List.map_congr_left
  intro line _
  rw [Function.comp_apply, Line.fails_bare]
  rfl

/-- A run finds the same without the presets. -/
theorem findings_assemble_bare :
    findings (assemble program.bare config) = findings (assemble program config) := by
  have hsize : (assemble program.bare config).value.image.size =
      (assemble program config).value.image.size := by
    rw [size_assemble, size_assemble, program.size_bare]
  have hexports : (assemble program.bare config).value.entryExports =
      (assemble program config).value.entryExports := rfl
  rw [findings, findings, errorCount_assemble_bare, diagnostics_assemble_bare, hsize,
    dropped_assemble_bare, hexports, map_flagged_assemble_bare]

end Findings

/-! ## Where presets end -/

theorem LabelRef.settle_bare {lookup : String → Option Address} {label : LabelRef}
    (h : (lookup label.name).isSome = true) : label.bare.settle lookup = label.settle lookup := by
  obtain ⟨address, haddress⟩ := Option.isSome_iff_exists.1 h
  simp [settle, bare, haddress]

namespace Operand

variable {lookup : String → Option Address} {config : Config} {operand : Operand}

/-- An operand that resolves forgets what it came with. -/
theorem settle_bare (h : operand.resolves lookup config = true) :
    operand.bare.settle lookup = operand.settle lookup := by
  cases operand with
  | absent => rfl
  | immediate value => rfl
  | direct label => exact congrArg direct (LabelRef.settle_bare h)
  | indexed label index => exact congrArg (indexed · index) (LabelRef.settle_bare h)
  | register number => rfl

/-- Operands that differ in presets alone and resolve are the same once they are settled. -/
theorem settle_eq_of_bare_eq {twin : Operand} (hbare : twin.bare = operand.bare)
    (h : operand.resolves lookup config = true) : twin.settle lookup = operand.settle lookup := by
  have htwin : twin.resolves lookup config = true := by
    rwa [← resolves_bare, hbare, resolves_bare]
  rw [← settle_bare htwin, hbare, settle_bare h]

/-- The words of an operand are those of the settled one, so presets are not in them. -/
theorem layout_bare (h : operand.resolves lookup config = true) (position : Position) :
    operand.bare.layout lookup position = operand.layout lookup position := by
  rw [← words_settle, settle_bare h, words_settle]

end Operand

/-- A line that does not fail has the same words without its presets. -/
theorem Line.layout_bare {lookup : String → Option Address} {config : Config} {line : Line}
    (h : line.fails lookup config = false) : line.bare.layout lookup = line.layout lookup := by
  by_cases hline : line.isEncodable = true
  · obtain ⟨opcode, hopcode, hflagged⟩ := isEncodable_iff.1 hline
    obtain ⟨hsource, hdest⟩ := resolves_of_fails_eq_false hline h
    have hoperands : operandsLayout lookup line.bare.source.operand line.bare.dest.operand =
        operandsLayout lookup line.source.operand line.dest.operand := by
      by_cases hpair : line.isRegisterPair = true
      · -- registers have no presets
        obtain ⟨source, dest, hsource, hdest⟩ := isRegisterPair_iff.1 hpair
        simp [bare, Slot.bare, hsource, hdest, Operand.bare]
      · have hpair : line.isRegisterPair = false := by simpa using hpair
        rw [operandsLayout_of_not_isRegisterPair hpair,
          operandsLayout_of_not_isRegisterPair (line.isRegisterPair_bare.trans hpair)]
        show line.source.operand.bare.layout lookup .source ++
          line.dest.operand.bare.layout lookup .dest = _
        rw [Operand.layout_bare hsource, Operand.layout_bare hdest]
    have hopcodeBare : line.bare.opcode? = some opcode := hopcode
    have hflaggedBare : line.bare.flagged = false := hflagged
    rw [layout_of_isEncodable hopcodeBare hflaggedBare, hoperands,
      layout_of_isEncodable hopcode hflagged]
    simp [bare, Slot.bare]
  · have hline : line.isEncodable = false := by simpa using hline
    rw [layout_of_not_isEncodable hline,
      layout_of_not_isEncodable (line.isEncodable_bare.trans hline)]

theorem codeLayout_bare {lookup : String → Option Address} {config : Config} {lines : List Line}
    (h : ∀ line ∈ lines, line.fails lookup config = false) :
    codeLayout lookup (lines.map Line.bare) = codeLayout lookup lines := by
  induction lines with
  | nil => rfl
  | cons line rest ih =>
    rw [List.map_cons, codeLayout_cons, codeLayout_cons,
      Line.layout_bare (h line List.mem_cons_self),
      ih fun other hother => h other (List.mem_cons_of_mem _ hother)]

/-- Where no line fails, the image is the same without the presets. -/
theorem image_assemble_bare {program : FirstPass} {config : Config}
    (h : ∀ line ∈ program.lines, line.fails program.lookup config = false) :
    (assemble program.bare config).value.image = (assemble program config).value.image := by
  rw [image_assemble, image_assemble, FirstPass.layout, FirstPass.layout, program.lookup_bare,
    program.lines_bare, codeLayout_bare h]
  rfl

/-! ## Runs without a failing line -/

/-- No line that is encoded fails: a run flags none of them. -/
def FirstPass.EncodesCleanly (program : FirstPass) (config : Config) : Prop :=
  ∀ (i : Nat) (line placed : Line), program.lines[i]? = some line → line.isEncodable = true →
    (assemble program config).value.lines[i]? = some placed → placed.flagged = false

/-- An encoded line is flagged exactly if it fails. -/
theorem FirstPass.encodesCleanly_iff {program : FirstPass} {config : Config} :
    program.EncodesCleanly config ↔
      ∀ line ∈ program.lines, line.fails program.lookup config = false := by
  constructor
  · intro h line hmem
    by_cases hline : line.isEncodable = true
    · obtain ⟨i, hi⟩ := List.mem_iff_getElem?.1 hmem
      obtain ⟨placed, hplaced⟩ := exists_placed hi config
      have hclean := h i line placed hi hline hplaced
      rw [eq_place_of_getElem? hi hplaced, Line.flagged_place, Bool.or_eq_false_iff] at hclean
      exact hclean.2
    · simp [Line.fails, hline]
  · intro h i line placed hi hline hplaced
    obtain ⟨-, -, hflagged⟩ := Line.isEncodable_iff.1 hline
    rw [eq_place_of_getElem? hi hplaced, Line.flagged_place, hflagged,
      h line (List.mem_of_getElem? hi)]
    rfl

/-! ## Programs that differ in presets alone -/

/-- Two assemblies of a program have the same code when they agree on the image and on the slots of
encoded lines: on the operands, and on the places of those with words of their own. -/
structure SameCode (program : FirstPass) (again assembly : Assembly) : Prop where
  image_eq : again.image = assembly.image
  slots_eq : ∀ (i : Nat) (line : Line), program.lines[i]? = some line →
    line.isEncodable = true → ∃ twin placed : Line,
      again.lines[i]? = some twin ∧ assembly.lines[i]? = some placed ∧
        ∀ position, (twin.slot position).operand = (placed.slot position).operand ∧
          (line.ownsWords position = true →
            (twin.slot position).emittedAt = (placed.slot position).emittedAt)

section Twins

variable {program other : FirstPass} (h : other.bare = program.bare)
include h

theorem map_bare_eq_of_bare_eq : other.lines.map Line.bare = program.lines.map Line.bare :=
  congrArg FirstPass.lines h

theorem lookup_eq_of_bare_eq : other.lookup = program.lookup := by
  rw [← other.lookup_bare, h, program.lookup_bare]

theorem map_shape_eq_of_bare_eq : other.lines.map Line.shape = program.lines.map Line.shape := by
  rw [← map_shape_bare, map_bare_eq_of_bare_eq h, map_shape_bare]

/-- Each line has its twin in the other program. -/
theorem exists_twin_of_bare_eq {i : Nat} {line : Line} (hi : program.lines[i]? = some line) :
    ∃ twin, other.lines[i]? = some twin ∧ twin.bare = line.bare := by
  have hmap : (other.lines[i]?).map Line.bare = some line.bare := by
    rw [← List.getElem?_map, map_bare_eq_of_bare_eq h, List.getElem?_map, hi, Option.map_some]
  exact Option.map_eq_some_iff.1 hmap

/-- A clean program stays clean whatever its presets. -/
theorem fails_eq_false_of_bare_eq {config : Config}
    (hclean : ∀ line ∈ program.lines, line.fails program.lookup config = false) :
    ∀ twin ∈ other.lines, twin.fails other.lookup config = false := by
  intro twin hmem
  have hbare : twin.bare ∈ program.lines.map Line.bare := by
    rw [← map_bare_eq_of_bare_eq h]
    exact List.mem_map_of_mem hmem
  obtain ⟨line, hline, hbare⟩ := List.mem_map.1 hbare
  rw [lookup_eq_of_bare_eq h, ← Line.fails_bare, ← hbare, Line.fails_bare]
  exact hclean line hline

/-- An operand of an encoded line that resolves is the same after both runs. -/
theorem operand_assemble_eq_of_bare_eq {config : Config} {i : Nat}
    {line twin placed placedTwin : Line} (hi : program.lines[i]? = some line)
    (htwin : other.lines[i]? = some twin) (hbare : twin.bare = line.bare)
    (hplaced : (assemble program config).value.lines[i]? = some placed)
    (hplacedTwin : (assemble other config).value.lines[i]? = some placedTwin)
    (hline : line.isEncodable = true) {position : Position}
    (hresolves : (line.slot position).operand.resolves program.lookup config = true) :
    (placedTwin.slot position).operand = (placed.slot position).operand := by
  have htwinLine : twin.isEncodable = true := by
    rwa [← twin.isEncodable_bare, hbare, line.isEncodable_bare]
  have hslot : (twin.slot position).bare = (line.slot position).bare := by
    rw [← twin.slot_bare, hbare, line.slot_bare]
  have hoperand : (twin.slot position).operand.bare = (line.slot position).operand.bare :=
    congrArg Slot.operand hslot
  rw [operand_assemble_slot htwin hplacedTwin htwinLine, operand_assemble_slot hi hplaced hline,
    lookup_eq_of_bare_eq h, Operand.settle_eq_of_bare_eq hoperand hresolves]

/-- An operand with words of its own remembers the same place after both runs, whether or not a line
fails. -/
theorem emittedAt_assemble_eq_of_bare_eq {config : Config} {i : Nat}
    {line twin placed placedTwin : Line} (hi : program.lines[i]? = some line)
    (htwin : other.lines[i]? = some twin) (hbare : twin.bare = line.bare)
    (hplaced : (assemble program config).value.lines[i]? = some placed)
    (hplacedTwin : (assemble other config).value.lines[i]? = some placedTwin)
    {position : Position} (howns : line.ownsWords position = true) :
    (placedTwin.slot position).emittedAt = (placed.slot position).emittedAt := by
  have hshape : twin.shape = line.shape := by
    rw [← twin.shape_bare, hbare, line.shape_bare]
  have hbefore : codeSize (other.lines.take i) = codeSize (program.lines.take i) := by
    apply codeSize_eq_of_shape
    rw [List.map_take, List.map_take, map_shape_eq_of_bare_eq h]
  rw [emittedAt_assemble_slot htwin hplacedTwin, emittedAt_assemble_slot hi hplaced,
    Line.emission, Line.emission, Line.ownsWords_eq_of_shape hshape, if_pos howns, if_pos howns,
    Line.operandOffset_eq_of_shape hshape, hbefore]

/-- Where no line fails, programs that differ in presets alone have the same code. -/
theorem sameCode_of_bare_eq {config : Config}
    (hclean : ∀ line ∈ program.lines, line.fails program.lookup config = false) :
    SameCode program (assemble other config).value (assemble program config).value := by
  refine ⟨?_, ?_⟩
  · rw [← image_assemble_bare (fails_eq_false_of_bare_eq h hclean), h, image_assemble_bare hclean]
  · intro i line hi hline
    obtain ⟨twin, htwin, hbare⟩ := exists_twin_of_bare_eq h hi
    obtain ⟨placedTwin, hplacedTwin⟩ := exists_placed htwin config
    obtain ⟨placed, hplaced⟩ := exists_placed hi config
    obtain ⟨hsource, hdest⟩ :=
      Line.resolves_of_fails_eq_false hline (hclean line (List.mem_of_getElem? hi))
    have hresolves : ∀ position,
        (line.slot position).operand.resolves program.lookup config = true := by
      rintro (_ | _)
      · exact hsource
      · exact hdest
    refine ⟨placedTwin, placed, hplacedTwin, hplaced, ?_⟩
    intro position
    exact ⟨operand_assemble_eq_of_bare_eq h hi htwin hbare hplaced hplacedTwin hline
        (hresolves position),
      emittedAt_assemble_eq_of_bare_eq h hi htwin hbare hplaced hplacedTwin⟩

end Twins

/-- **Presets do not leak.** Take two programs that differ only in the addresses that their labels
came with and in the places that their slots remember. A run finds the same in both: errors and
diagnostics, the size of the image and the words that it dropped, the exports and the flags of the
lines. If no encoded line fails, both have the same image, the same operands in every encoded line,
and the same place for every operand with words of its own. -/
theorem presets_do_not_leak (program other : FirstPass) (config : Config)
    (h : other.bare = program.bare) :
    findings (assemble other config) = findings (assemble program config) ∧
      (program.EncodesCleanly config →
        SameCode program (assemble other config).value (assemble program config).value) := by
  refine ⟨?_, ?_⟩
  · rw [← findings_assemble_bare other, h, findings_assemble_bare program]
  · intro hclean
    exact sameCode_of_bare_eq h (FirstPass.encodesCleanly_iff.1 hclean)

/-- The sample with the lines of an earlier run, which was loaded elsewhere and had its data
elsewhere. -/
def staleProgram : FirstPass :=
  { sampleProgram with
    lines := (assemble { sampleProgram with instructionCount := 900 }
      { firstAddress := 500 }).value.lines }

/-- Every place and one address in the lines of the earlier run are wrong, and nothing of it is left
after another run. -/
theorem presets_do_not_leak_staleProgram :
    staleProgram.lines ≠ sampleProgram.lines ∧ staleProgram.bare = sampleProgram.bare ∧
      sampleProgram.EncodesCleanly {} ∧
      findings (assemble staleProgram {}) = findings (assemble sampleProgram {}) ∧
      SameCode sampleProgram (assemble staleProgram {}).value
        (assemble sampleProgram {}).value := by
  have hbare : staleProgram.bare = sampleProgram.bare := rfl
  have hclean : sampleProgram.EncodesCleanly {} :=
    FirstPass.encodesCleanly_iff.2 (by decide)
  obtain ⟨hfindings, hcode⟩ := presets_do_not_leak sampleProgram staleProgram {} hbare
  exact ⟨by decide, hbare, hclean, hfindings, hcode hclean⟩

/-- In a line that fails, the address that a label came with does reach the image. -/
example :
    let program (resolved : Option Address) : FirstPass :=
      { symbols := .empty, instructionCount := 102, data := [], dataCount := 0, entries := []
        lines := [{ number := 1, text := "jmp X", opcode? := some .jmp
                    dest := { operand := .direct ⟨"X", resolved⟩ } }] }
    (program (some (.code 7))).bare = program none ∧
      (assemble (program (some (.code 7))) {}).value.image.words ≠
        (assemble (program none) {}).value.image.words := by
  refine ⟨rfl, ?_⟩
  decide

end SecondPass
