import SecondPass.Proofs.Faults
import SecondPass.Proofs.Tables

/-!
# Order of a program

A table is searched by name, and names are distinct, so the order in which labels were defined shows
in no result of a run but the table itself. The order of lines and entries decides where words go
and when a fault is reported, but neither what is reported nor how much there is of it: a line
fails or not whatever came before it, and the lack of room depends on sums only.
-/

namespace SecondPass

/-! ## Reorderings -/

/-- A program is a reordering of another one when it defines the same labels and has the same lines
and entries, each in any order, with the same data behind the same amount of code. -/
structure FirstPass.IsReordering (other program : FirstPass) : Prop where
  symbols : other.symbols.symbols.Perm program.symbols.symbols
  lines : other.lines.Perm program.lines
  entries : other.entries.Perm program.entries
  instructionCount_eq : other.instructionCount = program.instructionCount
  data_eq : other.data = program.data
  dataCount_eq : other.dataCount = program.dataCount

theorem codeSize_eq_of_perm {lines others : List Line} (h : lines.Perm others) :
    codeSize lines = codeSize others := by
  induction h with
  | nil => rfl
  | cons line _ ih => rw [codeSize_cons, codeSize_cons, ih]
  | swap first second rest =>
    simp only [codeSize_cons]
    omega
  | trans _ _ ih ih' => exact ih.trans ih'

theorem Entry.problem?_congr {symbols other : SymbolTable .final}
    (h : other.address? = symbols.address?) (entry : Entry) :
    entry.problem? other = entry.problem? symbols := by
  rw [problem?_eq, problem?_eq, h]

theorem exports_congr {symbols other : SymbolTable .final}
    (h : other.address? = symbols.address?) (entries : List Entry) :
    exports other entries = exports symbols entries := by
  have hexport : export? other = export? symbols := by
    funext name
    rw [export?_eq, export?_eq, h]
  rw [exports, exports, hexport]

namespace FirstPass.IsReordering

variable {program other : FirstPass} (h : other.IsReordering program) (config : Config)
include h

theorem lookup_eq : other.lookup = program.lookup := by
  funext name
  rw [lookup, lookup, SymbolTable.address?_eq_of_perm h.symbols, h.instructionCount_eq]

theorem address?_eq :
    (other.symbols.relocate other.instructionCount).address? =
      (program.symbols.relocate program.instructionCount).address? := by
  rw [address?_relocate, address?_relocate, h.lookup_eq]

theorem size_eq : other.size = program.size := by
  rw [size, size, codeSize_eq_of_perm h.lines, h.data_eq, h.dataCount_eq]

/-! ## What stays when everything is reordered -/

theorem image_size_eq :
    (assemble other config).value.image.size = (assemble program config).value.image.size := by
  rw [size_assemble, size_assemble, h.size_eq]

theorem dropped_eq :
    (assemble other config).value.image.dropped =
      (assemble program config).value.image.dropped := by
  rw [dropped_assemble, dropped_assemble, length_layout, length_layout, h.size_eq]

theorem errorCount_eq :
    (assemble other config).value.errorCount = (assemble program config).value.errorCount := by
  have hproblem : (fun entry : Entry =>
        (entry.problem? (other.symbols.relocate other.instructionCount)).isSome) =
      fun entry => (entry.problem? (program.symbols.relocate program.instructionCount)).isSome := by
    funext entry
    rw [Entry.problem?_congr h.address?_eq]
  rw [errorCount_assemble, errorCount_assemble, hproblem, h.lookup_eq, h.entries.countP_eq,
    h.lines.countP_eq, value_reportOverflow, value_reportOverflow, h.dropped_eq]

theorem complaint?_eq :
    Entry.complaint? (other.symbols.relocate other.instructionCount) =
      Entry.complaint? (program.symbols.relocate program.instructionCount) := by
  funext entry
  rw [Entry.complaint?, Entry.complaint?, Entry.problem?_congr h.address?_eq]

/-- The same is reported, each report when its line or entry has its turn. -/
theorem diagnostics_perm :
    (assemble other config).diagnostics.Perm (assemble program config).diagnostics := by
  have hcapacity : (assemble other config).value.image.capacity =
      (assemble program config).value.image.capacity := by
    rw [image_assemble, image_assemble, Image.capacity_offer, Image.capacity_offer]
  rw [diagnostics_assemble, diagnostics_assemble, h.complaint?_eq, h.lookup_eq,
    diagnostics_reportOverflow, diagnostics_reportOverflow, h.dropped_eq, hcapacity]
  exact ((h.entries.filterMap _).append (h.lines.flatMap_right _)).append (List.Perm.refl _)

/-! ## What stays when the labels are reordered -/

variable (hlines : other.lines = program.lines)
include hlines

theorem image_eq :
    (assemble other config).value.image = (assemble program config).value.image := by
  rw [image_assemble, image_assemble, layout, layout, h.lookup_eq, hlines, dataLayout, dataLayout,
    h.data_eq, h.dataCount_eq]

theorem lines_eq :
    (assemble other config).value.lines = (assemble program config).value.lines := by
  rw [lines_assemble, lines_assemble, h.lookup_eq, hlines]

theorem externalReferences_eq :
    (assemble other config).value.externalReferences =
      (assemble program config).value.externalReferences := by
  rw [Assembly.externalReferences, Assembly.externalReferences, h.lines_eq config hlines]

variable (hentries : other.entries = program.entries)
include hentries

theorem diagnostics_eq :
    (assemble other config).diagnostics = (assemble program config).diagnostics := by
  rw [diagnostics_assemble, diagnostics_assemble, h.complaint?_eq, h.lookup_eq, hlines, hentries,
    h.image_eq config hlines]

omit hlines in
theorem entryExports_eq :
    (assemble other config).value.entryExports =
      (assemble program config).value.entryExports := by
  show exports (other.symbols.relocate other.instructionCount) other.entries =
    exports (program.symbols.relocate program.instructionCount) program.entries
  rw [exports_congr h.address?_eq, hentries]

end FirstPass.IsReordering

/-! ## Independence of order -/

/-- Two runs have the same result when they agree on all that an assembly shows but the order of its
table. -/
structure SameResult (again run : Logged Assembly) : Prop where
  image_eq : again.value.image = run.value.image
  lines_eq : again.value.lines = run.value.lines
  diagnostics_eq : again.diagnostics = run.diagnostics
  errorCount_eq : again.value.errorCount = run.value.errorCount
  externalReferences_eq : again.value.externalReferences = run.value.externalReferences
  entryExports_eq : again.value.entryExports = run.value.entryExports

/-- Two runs have the same totals when they count the same errors and words and report the same in
some order. -/
structure SameTotals (again run : Logged Assembly) : Prop where
  errorCount_eq : again.value.errorCount = run.value.errorCount
  size_eq : again.value.image.size = run.value.image.size
  dropped_eq : again.value.image.dropped = run.value.image.dropped
  diagnostics_perm : again.diagnostics.Perm run.diagnostics

/-- **Order matters little.** Labels with distinct names can be defined in any order, and a run of
the program has the same result under each. If the lines and the entries are reordered as well, it
still has the same totals. -/
theorem assemble_reordered (config : Config) (program : FirstPass)
    (symbols reordered : List Symbol) (hdistinct : (symbols.map Symbol.name).Nodup)
    (hsymbols : reordered.Perm symbols) :
    ∃ table other, SymbolTable.ofList symbols = .ok table ∧
      SymbolTable.ofList reordered = .ok other ∧
      SameResult (assemble { program with symbols := other } config)
        (assemble { program with symbols := table } config) ∧
      ∀ lines entries, lines.Perm program.lines → entries.Perm program.entries →
        SameTotals
          (assemble { program with symbols := other, lines := lines, entries := entries } config)
          (assemble { program with symbols := table } config) := by
  have hnodup : (reordered.map Symbol.name).Nodup :=
    (hsymbols.map Symbol.name).nodup_iff.2 hdistinct
  obtain ⟨table, htable, rfl⟩ := SymbolTable.exists_ofList_of_nodup hdistinct
  obtain ⟨other, hother, rfl⟩ := SymbolTable.exists_ofList_of_nodup hnodup
  refine ⟨table, other, htable, hother, ?_, ?_⟩
  · have h : FirstPass.IsReordering { program with symbols := other }
        { program with symbols := table } :=
      ⟨hsymbols, List.Perm.refl _, List.Perm.refl _, rfl, rfl, rfl⟩
    exact ⟨h.image_eq config rfl, h.lines_eq config rfl, h.diagnostics_eq config rfl rfl,
      h.errorCount_eq config, h.externalReferences_eq config rfl, h.entryExports_eq config rfl⟩
  · intro lines entries hlines hentries
    have h : FirstPass.IsReordering
        { program with symbols := other, lines := lines, entries := entries }
        { program with symbols := table } :=
      ⟨hsymbols, hlines, hentries, rfl, rfl, rfl⟩
    exact ⟨h.errorCount_eq config, h.image_size_eq config, h.dropped_eq config,
      h.diagnostics_perm config⟩

/-- The labels of the sample without the one of its data. -/
def codeSymbols : List Symbol := [⟨"MAIN", .code 100⟩, ⟨"EXT", .external 17⟩]

/-- Settings with too few words and registers for the sample. -/
def scantConfig : Config := { capacity := 5, registerCount := 6, overflow := .reject }

/-- Without its data label the sample has a fault in an entry and in two lines, and eleven of its
words find no room. Reversed in all its parts it counts the same, though it reports the lines in
another order. -/
theorem assemble_reordered_sampleProgram :
    (codeSymbols.map Symbol.name).Nodup ∧ codeSymbols.reverse.Perm codeSymbols ∧
      ∃ table other, SymbolTable.ofList codeSymbols = .ok table ∧
        SymbolTable.ofList codeSymbols.reverse = .ok other ∧
        (assemble { sampleProgram with symbols := table } scantConfig).value.errorCount = 4 ∧
        (assemble { sampleProgram with symbols := table } scantConfig).value.image.dropped = 11 ∧
        SameResult (assemble { sampleProgram with symbols := other } scantConfig)
          (assemble { sampleProgram with symbols := table } scantConfig) ∧
        SameTotals
          (assemble { sampleProgram with
            symbols := other
            lines := sampleProgram.lines.reverse
            entries := sampleProgram.entries.reverse } scantConfig)
          (assemble { sampleProgram with symbols := table } scantConfig) := by
  have hdistinct : (codeSymbols.map Symbol.name).Nodup := by decide
  have hsymbols : codeSymbols.reverse.Perm codeSymbols := List.reverse_perm codeSymbols
  refine ⟨hdistinct, hsymbols, ?_⟩
  obtain ⟨table, other, htable, hother, hresult, htotals⟩ := assemble_reordered scantConfig
    sampleProgram codeSymbols codeSymbols.reverse hdistinct hsymbols
  have hreversed := htotals _ _ (List.reverse_perm sampleProgram.lines)
    (List.reverse_perm sampleProgram.entries)
  have hcount : (assemble { sampleProgram with symbols := ⟨codeSymbols, by decide⟩ }
      scantConfig).value.errorCount = 4 := by decide +kernel
  have hdropped : (assemble { sampleProgram with symbols := ⟨codeSymbols, by decide⟩ }
      scantConfig).value.image.dropped = 11 := by decide +kernel
  obtain rfl : ⟨codeSymbols, by decide⟩ = table := Except.ok.inj htable
  exact ⟨_, other, htable, hother, hcount, hdropped, hresult, hreversed⟩

end SecondPass
