import SecondPass.Proofs.Run

/-!
# Faults

What is wrong with a program can be read off the program: entries that name no label of the module,
operands that name a register or a label that there is not (`Operand.isBad`), and a program that
does not fit. A run counts entries one by one, bad lines once each and the lack of room once, while
it reports operands one by one and passes over names that cannot be labels. So the count and the
list of reports differ in length, and both are given here in full.
-/

namespace SecondPass

/-! ## Bad operands -/

/-- Whether an operand is bad: it names a register past the last one, or a label that is not among
the names of the module. -/
def Operand.isBad (names : List String) (config : Config) : Operand → Bool
  | register number => decide (min config.registerCount registerLimit ≤ number)
  | direct label => decide (label.name ∉ names)
  | indexed label _ => decide (label.name ∉ names)
  | _ => false

/-- What a bad operand is reported as. A name that is no legal label is passed over. -/
def Operand.accusation? (config : Config) : Operand → Option Problem
  | register number => some (.noSuchRegister number)
  | direct label =>
    if isLegalLabel label.name config then some (.noSuchLabel label.name) else none
  | indexed label _ =>
    if isLegalLabel label.name config then some (.noSuchLabel label.name) else none
  | _ => none

/-- The report on an operand of a line, if there is one. -/
def Operand.report? (names : List String) (config : Config) (line : Nat) (operand : Operand) :
    Option Diagnostic :=
  if operand.isBad names config then
    (operand.accusation? config).map fun problem => ⟨some line, problem⟩
  else none

/-- Whether a line that makes words has a bad operand. -/
def Line.isBad (names : List String) (config : Config) (line : Line) : Bool :=
  line.isEncodable && line.slots.any fun slot => slot.operand.isBad names config

/-- The reports on a line that makes words, the source before the destination. -/
def Line.reports (names : List String) (config : Config) (line : Line) : List Diagnostic :=
  if line.isEncodable then
    line.slots.filterMap fun slot => slot.operand.report? names config line.number
  else []

/-! ## Illegal entries -/

/-- Whether an entry names no label of the module: the name is missing, or external. -/
def Entry.isIllegal (symbols : SymbolTable .pending) (entry : Entry) : Bool :=
  (symbols.address? entry.name).all Address.isExternal

/-- The report on an illegal entry. -/
def Entry.report? (symbols : SymbolTable .pending) (entry : Entry) : Option Diagnostic :=
  match symbols.address? entry.name with
  | none => some ⟨some entry.line, .noSuchLabel entry.name⟩
  | some (.external _) => some ⟨some entry.line, .externalEntry entry.name⟩
  | some _ => none

/-! ## Names in tables -/

/-- A name has an address exactly if it is among the names of the table. -/
theorem SymbolTable.isSome_address?_iff {stage : Stage} {table : SymbolTable stage}
    {name : String} : (table.address? name).isSome = true ↔ name ∈ table.names := by
  rw [address?, get?_eq_find?, Option.isSome_map, List.find?_isSome, names, List.mem_map]
  simp

/-- Moving the data past the code loses no name and finds none. -/
theorem isSome_lookup_iff {program : FirstPass} {name : String} :
    (program.lookup name).isSome = true ↔ name ∈ program.symbols.names := by
  rw [← SymbolTable.isSome_address?_iff, FirstPass.lookup]
  cases program.symbols.address? name with
  | none => rfl
  | some address => cases address <;> rfl

/-! ## Bad operands do not resolve -/

section Names

variable {lookup : String → Option Address} {names : List String}
  (hnames : ∀ name, (lookup name).isSome = true ↔ name ∈ names)
include hnames

/-- Where the names are those that live somewhere, an operand resolves exactly if it is not bad. -/
theorem Operand.resolves_eq_not_isBad (config : Config) (operand : Operand) :
    operand.resolves lookup config = !operand.isBad names config := by
  have hname : ∀ name, (lookup name).isSome = !decide (name ∉ names) := by
    intro name
    rw [Bool.eq_iff_iff, hnames]
    simp
  cases operand with
  | absent => rfl
  | immediate value => rfl
  | direct label => exact hname label.name
  | indexed label index => exact hname label.name
  | register number =>
    rw [resolves, isBad, Config.usableRegisters, ← decide_not]
    exact decide_eq_decide.2 Nat.not_le.symm

theorem Line.fails_eq_isBad (config : Config) (line : Line) :
    line.fails lookup config = line.isBad names config := by
  rw [fails, isBad, Operand.resolves_eq_not_isBad hnames, Operand.resolves_eq_not_isBad hnames]
  simp [slots]

end Names

/-! ## What a run finds -/

section Program

variable (program : FirstPass) (config : Config)

/-- An operand resolves exactly if it is not bad. -/
theorem Operand.resolves_eq (operand : Operand) :
    operand.resolves program.lookup config =
      !operand.isBad program.symbols.names config :=
  operand.resolves_eq_not_isBad (fun _ => isSome_lookup_iff) config

theorem Operand.complaints_eq (operand : Operand) (line : Nat) :
    operand.complaints program.lookup config line =
      (operand.report? program.symbols.names config line).toList := by
  rw [complaints, report?, resolves_eq]
  cases operand.isBad program.symbols.names config with
  | false => rfl
  | true =>
    -- direct and indexed operands are reported by their name alone
    have hname : ∀ name, (if isLegalLabel name config then
          [(⟨some line, .noSuchLabel name⟩ : Diagnostic)] else []) =
        ((if isLegalLabel name config then some (Problem.noSuchLabel name) else none).map
          fun problem => (⟨some line, problem⟩ : Diagnostic)).toList := by
      intro name
      cases isLegalLabel name config <;> rfl
    cases operand with
    | absent => rfl
    | immediate value => rfl
    | register number => rfl
    | direct label => exact hname label.name
    | indexed label index => exact hname label.name

/-- A line fails exactly if it is bad. -/
theorem Line.fails_eq (line : Line) :
    line.fails program.lookup config = line.isBad program.symbols.names config :=
  line.fails_eq_isBad (fun _ => isSome_lookup_iff) config

theorem Line.complaints_eq (line : Line) :
    line.complaints program.lookup config = line.reports program.symbols.names config := by
  rw [complaints, reports, Operand.complaints_eq, Operand.complaints_eq]
  cases line.isEncodable with
  | false => rfl
  | true =>
    rw [if_pos rfl, if_pos rfl, slots, List.filterMap_cons, List.filterMap_cons]
    cases line.source.operand.report? program.symbols.names config line.number <;>
      cases line.dest.operand.report? program.symbols.names config line.number <;> rfl

/-- What is wrong with an entry can be seen before the table is final. -/
theorem Entry.complaint?_eq (entry : Entry) :
    entry.complaint? (program.symbols.relocate program.instructionCount) =
      entry.report? program.symbols := by
  rw [complaint?, problem?_eq, address?_relocate, FirstPass.lookup, report?]
  cases program.symbols.address? entry.name with
  | none => rfl
  | some address => cases address <;> rfl

theorem Entry.isSome_problem?_eq (entry : Entry) :
    (entry.problem? (program.symbols.relocate program.instructionCount)).isSome =
      entry.isIllegal program.symbols := by
  rw [problem?_eq, address?_relocate, FirstPass.lookup, isIllegal]
  cases program.symbols.address? entry.name with
  | none => rfl
  | some address => cases address <;> rfl

end Program

theorem value_reportOverflow (overflow : OverflowPolicy) (image : Image) :
    (reportOverflow overflow image).value =
      if overflow = .reject ∧ 0 < image.dropped then 1 else 0 := by
  unfold reportOverflow
  by_cases hdropped : image.dropped = 0
  · rw [if_pos hdropped, if_neg (by omega)]
    rfl
  · have hpos : 0 < image.dropped := Nat.pos_of_ne_zero hdropped
    rw [if_neg hdropped]
    cases overflow with
    | truncate => simp
    | reject => simp [hpos]

theorem diagnostics_reportOverflow (overflow : OverflowPolicy) (image : Image) :
    (reportOverflow overflow image).diagnostics =
      if overflow = .reject ∧ 0 < image.dropped then
        [⟨none, .tooLarge image.capacity image.dropped⟩]
      else [] := by
  unfold reportOverflow
  by_cases hdropped : image.dropped = 0
  · rw [if_pos hdropped, if_neg (by omega)]
    rfl
  · have hpos : 0 < image.dropped := Nat.pos_of_ne_zero hdropped
    rw [if_neg hdropped]
    cases overflow with
    | truncate => simp [Logged.diagnostics]
    | reject => simp [Logged.diagnostics, hpos]

/-- **The faults of a run.** The error count is the number of illegal entries, of lines with a bad
operand, each counted once, and one more if words found no room and that is not to be passed over.
The diagnostics are the reports on illegal entries, then those on bad operands line by line, then
the report on the lack of room, each in the order of the program. -/
theorem faults_assemble (program : FirstPass) (config : Config) :
    (assemble program config).value.errorCount =
        program.entries.countP (Entry.isIllegal program.symbols) +
          program.lines.countP (Line.isBad program.symbols.names config) +
          (if config.overflow = .reject ∧ 0 < (assemble program config).value.image.dropped
            then 1 else 0) ∧
      (assemble program config).diagnostics =
        program.entries.filterMap (Entry.report? program.symbols) ++
          program.lines.flatMap (Line.reports program.symbols.names config) ++
          (if config.overflow = .reject ∧ 0 < (assemble program config).value.image.dropped then
            [⟨none, .tooLarge (assemble program config).value.image.capacity
              (assemble program config).value.image.dropped⟩]
          else []) := by
  refine ⟨?_, ?_⟩
  · have hentries := funext (Entry.isSome_problem?_eq program)
    have hlines := funext (Line.fails_eq program config)
    rw [errorCount_assemble, value_reportOverflow, hentries, hlines]
  · have hentries := funext (Entry.complaint?_eq program)
    have hlines := funext (Line.complaints_eq program config)
    rw [diagnostics_assemble, diagnostics_reportOverflow, hentries, hlines]

/-- Two bad operands are one error and one report if the name is no label, and a full image is one
more of each. -/
example :
    let run := assemble
      { symbols := .empty, instructionCount := 0, data := [], dataCount := 0, entries := []
        lines := [{ number := 4, text := "mov r9, 7UP", opcode? := some .mov
                    source := { operand := .register 9 }
                    dest := { operand := .direct { name := "7UP" } } }] }
      { capacity := 1, overflow := .reject }
    run.value.errorCount = 2 ∧
      run.diagnostics = [⟨some 4, .noSuchRegister 9⟩, ⟨none, .tooLarge 1 2⟩] := by
  decide

end SecondPass
