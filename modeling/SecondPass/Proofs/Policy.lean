import SecondPass.Proofs.Faults

/-!
# The overflow policy

What becomes of words that do not fit is a matter of the report alone. A run looks at the policy
when it tells of the words that were dropped, and nowhere before: operands resolve, lines are placed
and words are stored as under any other policy. The lemmas go through the parts of a run in the
order in which they depend on the settings, and two runs that differ in the policy are compared at
the end.
-/

namespace SecondPass

section Policy

variable (config : Config) (overflow : OverflowPolicy)

/-! ## Parts of a run -/

theorem Config.addressAfter_withOverflow :
    (config.withOverflow overflow).addressAfter = config.addressAfter := rfl

theorem Operand.resolves_withOverflow (lookup : String → Option Address) (operand : Operand) :
    operand.resolves lookup (config.withOverflow overflow) = operand.resolves lookup config := by
  cases operand <;> rfl

theorem Operand.complaints_withOverflow (lookup : String → Option Address) (line : Nat)
    (operand : Operand) :
    operand.complaints lookup (config.withOverflow overflow) line =
      operand.complaints lookup config line := by
  rw [complaints, complaints, resolves_withOverflow]
  -- which names are labels depends on other settings
  rfl

namespace Line

variable (lookup : String → Option Address) (line : Line)

theorem fails_withOverflow :
    line.fails lookup (config.withOverflow overflow) = line.fails lookup config := by
  simp only [fails, Operand.resolves_withOverflow]

theorem complaints_withOverflow :
    line.complaints lookup (config.withOverflow overflow) = line.complaints lookup config := by
  simp only [complaints, Operand.complaints_withOverflow]

theorem place_withOverflow (address : Nat → Nat) :
    line.place lookup (config.withOverflow overflow) address =
      line.place lookup config address := by
  simp only [place, fails_withOverflow]

end Line

theorem placeLines_withOverflow (lookup : String → Option Address) (address : Nat → Nat)
    (lines : List Line) :
    placeLines lookup (config.withOverflow overflow) address lines =
      placeLines lookup config address lines := by
  induction lines generalizing address with
  | nil => rfl
  | cons line rest ih => rw [placeLines, placeLines, Line.place_withOverflow, ih]

/-! ## Whole runs -/

variable (program : FirstPass)

/-- The image of a run remembers the policy and is otherwise the same under each. -/
theorem image_assemble_withOverflow :
    (assemble program (config.withOverflow overflow)).value.image =
      { (assemble program config).value.image with overflow := overflow } := by
  rw [image_assemble, image_assemble]
  rfl

theorem lines_assemble_withOverflow :
    (assemble program (config.withOverflow overflow)).value.lines =
      (assemble program config).value.lines := by
  rw [lines_assemble, lines_assemble, Config.addressAfter_withOverflow, placeLines_withOverflow]

/-- The diagnostics of a run end with what the policy says about the words that were dropped. -/
theorem diagnostics_assemble_withOverflow :
    (assemble program (config.withOverflow overflow)).diagnostics =
      program.entries.filterMap
          (Entry.complaint? (program.symbols.relocate program.instructionCount)) ++
        program.lines.flatMap (Line.complaints program.lookup config) ++
        (reportOverflow overflow (assemble program config).value.image).diagnostics := by
  have hlines := funext (Line.complaints_withOverflow config overflow program.lookup)
  rw [diagnostics_assemble, hlines, image_assemble_withOverflow, diagnostics_reportOverflow,
    diagnostics_reportOverflow]
  rfl

theorem errorCount_assemble_withOverflow :
    (assemble program (config.withOverflow overflow)).value.errorCount =
      (program.entries.countP fun entry =>
          (entry.problem? (program.symbols.relocate program.instructionCount)).isSome) +
        program.lines.countP (Line.fails program.lookup config) +
        (reportOverflow overflow (assemble program config).value.image).value := by
  have hlines := funext (Line.fails_withOverflow config overflow program.lookup)
  rw [errorCount_assemble, hlines, image_assemble_withOverflow, value_reportOverflow,
    value_reportOverflow]
  rfl

end Policy

/-- Under `truncate` words are dropped in silence. -/
theorem diagnostics_reportOverflow_truncate (image : Image) :
    (reportOverflow .truncate image).diagnostics = [] := by
  rw [diagnostics_reportOverflow, if_neg (by simp)]

theorem value_reportOverflow_truncate (image : Image) :
    (reportOverflow .truncate image).value = 0 := by
  rw [value_reportOverflow, if_neg (by simp)]

/-- **The policy affects the report only.** Under `truncate` and under `reject` a program becomes
the same words, lines, symbols and views, and the same number of words is dropped. If any was, the
run under `reject` reports that last, without a line, and counts one error more; if none was, the
two runs report and count the same. -/
theorem policy_affects_report_only (program : FirstPass) (config : Config) :
    let truncated := assemble program (config.withOverflow .truncate)
    let rejected := assemble program (config.withOverflow .reject)
    let image := truncated.value.image
    rejected.value.image = { image with overflow := .reject } ∧
      rejected.value.lines = truncated.value.lines ∧
      rejected.value.symbols = truncated.value.symbols ∧
      rejected.value.externalReferences = truncated.value.externalReferences ∧
      rejected.value.entryExports = truncated.value.entryExports ∧
      rejected.diagnostics = truncated.diagnostics ++
        (if 0 < image.dropped then [⟨none, .tooLarge image.capacity image.dropped⟩] else []) ∧
      rejected.value.errorCount = truncated.value.errorCount +
        (if 0 < image.dropped then 1 else 0) := by
  intro truncated rejected image
  have hlines : rejected.value.lines = truncated.value.lines := by
    simp only [rejected, truncated, lines_assemble_withOverflow]
  refine ⟨?_, hlines, rfl, ?_, rfl, ?_, ?_⟩
  · simp only [rejected, image, truncated, image_assemble_withOverflow]
  · rw [Assembly.externalReferences, Assembly.externalReferences, hlines]
  · simp only [rejected, image, truncated, diagnostics_assemble_withOverflow,
      diagnostics_reportOverflow_truncate, List.append_nil, image_assemble_withOverflow]
    rw [diagnostics_reportOverflow]
    simp
  · simp only [rejected, image, truncated, errorCount_assemble_withOverflow,
      value_reportOverflow_truncate, Nat.add_zero, image_assemble_withOverflow]
    rw [value_reportOverflow]
    simp

end SecondPass
