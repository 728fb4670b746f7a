import SecondPass.Proofs.Presets

/-!
# Attempts at a line

A line can be encoded again and again, each time with another table, other settings and another
image (`Attempt`). An attempt either passes over the line or places it, so two facts about one
attempt decide what any number of them can do. A line that fails is flagged (`Attempt.flagged_on`),
and attempts pass over flagged lines (`Line.isInert_of_skipped`): a line fails at most once and is
inert from then on.

`Line.Keeps` is the frame: what attempts leave as it is, and where a label can have got its address.
Frames of successive attempts compose (`Line.Keeps.trans`).
-/

namespace SecondPass

/-! ## Attempts -/

/-- What a line is encoded with, and what was logged before. -/
structure Attempt where
  symbols : SymbolTable .final
  config : Config
  image : Image
  journal : Journal

/-- The outcome of an attempt at a line. Its journal continues the one before. -/
def Attempt.on (attempt : Attempt) (line : Line) : Logged LineEncoding :=
  let encoding := line.encode attempt.symbols attempt.config attempt.image
  ⟨encoding.value, attempt.journal ++ encoding.journal⟩

/-- A line after attempts at it, one after the other. -/
def Line.after (line : Line) : List Attempt → Line
  | [] => line
  | attempt :: rest => (attempt.on line).value.line.after rest

/-- Which attempts found no fault. -/
def Line.answers (line : Line) : List Attempt → List Bool
  | [] => []
  | attempt :: rest => (attempt.on line).value.ok :: (attempt.on line).value.line.answers rest

/-- No attempt at the line has an effect: line, image and journal stay as they are. -/
def Line.IsInert (line : Line) : Prop :=
  ∀ attempt : Attempt, attempt.on line = ⟨⟨line, attempt.image, true⟩, attempt.journal⟩

/-! ## The frame of an attempt -/

/-- An operand is the same but for the address of its label, and that is the address that the label
had or one that a table has for its name. -/
structure Operand.Keeps (tables : List (SymbolTable .final)) (operand after : Operand) :
    Prop where
  bare_eq : after.bare = operand.bare
  resolved : ∀ label, after.label? = some label → operand.label? = some label ∨
    ∃ table ∈ tables, ∃ address, table.address? label.name = some address ∧
      label.resolved = some address

/-- A line is the same but for its flag, the places of its operands and the addresses of its labels,
which came from tables. -/
structure Line.Keeps (tables : List (SymbolTable .final)) (line after : Line) : Prop where
  number_eq : after.number = line.number
  text_eq : after.text = line.text
  opcode?_eq : after.opcode? = line.opcode?
  operands : ∀ position,
    (line.slot position).operand.Keeps tables (after.slot position).operand

namespace Operand

@[simp] theorem label?_bare (operand : Operand) :
    operand.bare.label? = operand.label?.map LabelRef.bare := by
  cases operand <;> rfl

theorem eq_of_bare_eq {operand after : Operand} (hbare : after.bare = operand.bare)
    (hlabel : after.label? = operand.label?) : after = operand := by
  cases after <;> cases operand <;> simp_all [bare, label?]

namespace Keeps

variable {tables later : List (SymbolTable .final)} {operand after final : Operand}

theorem refl (tables : List (SymbolTable .final)) (operand : Operand) :
    operand.Keeps tables operand :=
  ⟨rfl, fun _ hlabel => .inl hlabel⟩

theorem trans (h : operand.Keeps tables after) (hlater : after.Keeps later final) :
    operand.Keeps (tables ++ later) final := by
  refine ⟨hlater.bare_eq.trans h.bare_eq, ?_⟩
  intro label hlabel
  rcases hlater.resolved label hlabel with hafter | ⟨table, htable, hfound⟩
  · rcases h.resolved label hafter with hoperand | ⟨table, htable, hfound⟩
    · exact .inl hoperand
    · exact .inr ⟨table, List.mem_append_left later htable, hfound⟩
  · exact .inr ⟨table, List.mem_append_right tables htable, hfound⟩

/-- An operand whose label is in none of the tables stays exactly as it was. -/
theorem eq_of_missing (h : operand.Keeps tables after) {label : LabelRef}
    (hlabel : operand.label? = some label)
    (hmissing : ∀ table ∈ tables, label.name ∉ table.names) : after = operand := by
  have hbare : after.label?.map LabelRef.bare = some label.bare := by
    rw [← label?_bare, h.bare_eq, label?_bare, hlabel, Option.map_some]
  obtain ⟨found, hfound, hsame⟩ := Option.map_eq_some_iff.1 hbare
  have hname : found.name = label.name := by
    show found.bare.name = label.bare.name
    rw [hsame]
  rcases h.resolved found hfound with hkept | ⟨table, htable, address, haddress, -⟩
  · exact eq_of_bare_eq h.bare_eq (hfound.trans hkept.symm)
  · have hmem : found.name ∈ table.names := by
      rw [← SymbolTable.isSome_address?_iff, haddress]
      rfl
    rw [hname] at hmem
    exact absurd hmem (hmissing table htable)

end Keeps

@[simp] theorem bare_settle (lookup : String → Option Address) (operand : Operand) :
    (operand.settle lookup).bare = operand.bare := by
  cases operand <;> rfl

/-- A settled operand has its address from the table, or is as it was. -/
theorem keeps_settle (symbols : SymbolTable .final) (operand : Operand) :
    operand.Keeps [symbols] (operand.settle symbols.address?) := by
  refine ⟨bare_settle symbols.address? operand, ?_⟩
  intro settled hsettled
  rw [label?_settle, Option.map_eq_some_iff] at hsettled
  obtain ⟨label, hlabel, rfl⟩ := hsettled
  cases haddress : symbols.address? label.name with
  | none =>
    left
    rw [hlabel, LabelRef.settle, haddress, Option.none_or]
  | some address =>
    right
    refine ⟨symbols, List.mem_singleton_self symbols, address, haddress, ?_⟩
    rw [LabelRef.settle, haddress, Option.some_or]

end Operand

namespace Line

theorem Keeps.refl (tables : List (SymbolTable .final)) (line : Line) : line.Keeps tables line :=
  ⟨rfl, rfl, rfl, fun _ => .refl tables _⟩

theorem Keeps.trans {tables later : List (SymbolTable .final)} {line after final : Line}
    (h : line.Keeps tables after) (hlater : after.Keeps later final) :
    line.Keeps (tables ++ later) final where
  number_eq := hlater.number_eq.trans h.number_eq
  text_eq := hlater.text_eq.trans h.text_eq
  opcode?_eq := hlater.opcode?_eq.trans h.opcode?_eq
  operands := fun position => (h.operands position).trans (hlater.operands position)

/-- Placing a line keeps all but its operands, which are settled. -/
theorem keeps_place (symbols : SymbolTable .final) (config : Config) (address : Nat → Nat)
    (line : Line) : line.Keeps [symbols] (line.place symbols.address? config address) := by
  by_cases hline : line.isEncodable = true
  · have hoperands : ∀ position, (line.slot position).operand.Keeps [symbols]
        ((line.place symbols.address? config address).slot position).operand := by
      intro position
      rw [operand_place hline]
      exact Operand.keeps_settle symbols _
    refine ⟨?_, ?_, ?_, hoperands⟩ <;> rw [place, if_pos hline] <;> split <;> rfl
  · rw [place, if_neg hline]
    exact Keeps.refl [symbols] line

end Line

/-! ## One attempt -/

/-- Attempts pass over a flagged line, and over a line without an instruction. -/
theorem Line.isInert_of_skipped {line : Line} (h : line.flagged = true ∨ line.opcode? = none) :
    line.IsInert := by
  intro attempt
  have hencode : line.encode attempt.symbols attempt.config attempt.image =
      pure ⟨line, attempt.image, true⟩ := by
    rcases h with hflagged | hopcode
    · exact encode_of_flagged hflagged attempt.symbols attempt.config attempt.image
    · exact encode_of_opcode?_eq_none hopcode attempt.symbols attempt.config attempt.image
  rw [Attempt.on, hencode, Logged.value_pure, Logged.journal_pure, Journal.append_empty]

namespace Attempt

variable (attempt : Attempt) (line : Line)

theorem fails_eq : line.fails attempt.symbols.address? attempt.config =
    line.isBad attempt.symbols.names attempt.config :=
  line.fails_eq_isBad (fun _ => SymbolTable.isSome_address?_iff) attempt.config

/-- An attempt places the line, offers its words, and tells whether it is bad. -/
theorem value_on :
    (attempt.on line).value =
      ⟨line.place attempt.symbols.address? attempt.config attempt.image.addressAfter,
        attempt.image.offer (line.layout attempt.symbols.address?),
        !line.isBad attempt.symbols.names attempt.config⟩ := by
  rw [← fails_eq, ← Line.value_encode]
  rfl

theorem keeps_on : line.Keeps [attempt.symbols] (attempt.on line).value.line := by
  rw [value_on]
  exact line.keeps_place attempt.symbols attempt.config attempt.image.addressAfter

/-- A line that fails is flagged. -/
theorem flagged_on {line : Line} (h : (attempt.on line).value.ok = false) :
    (attempt.on line).value.line.flagged = true := by
  rw [value_on, Bool.not_eq_false'] at h
  rw [value_on, Line.flagged_place, fails_eq, h, Bool.or_true]

end Attempt

/-- What an attempt at a line amounts to. -/
structure Attempt.Accounts (attempt : Attempt) (line : Line) : Prop where
  /-- The attempt fails exactly if the line has an instruction, is not flagged, and has an operand
  that names a register past the last one or a label that is not in the table. -/
  fails_iff : (attempt.on line).value.ok = false ↔
    line.opcode?.isSome = true ∧ line.flagged = false ∧
      ∃ position, (line.slot position).operand.isBad attempt.symbols.names attempt.config = true
  /-- Nothing comes of an attempt at a line that is flagged or has no instruction. -/
  passes_over : line.flagged = true ∨ line.opcode? = none →
    attempt.on line = ⟨⟨line, attempt.image, true⟩, attempt.journal⟩
  keeps : line.Keeps [attempt.symbols] (attempt.on line).value.line
  /-- An operand whose label is not in the table stays exactly as it was. -/
  missing : ∀ position label, (line.slot position).operand.label? = some label →
    label.name ∉ attempt.symbols.names →
      ((attempt.on line).value.line.slot position).operand = (line.slot position).operand

theorem Attempt.accounts (attempt : Attempt) (line : Line) : attempt.Accounts line where
  fails_iff := by
    rw [value_on, Bool.not_eq_false', Line.isBad_iff]
  passes_over := fun hskipped => Line.isInert_of_skipped hskipped attempt
  keeps := attempt.keeps_on line
  missing := by
    intro position label hlabel hmissing
    refine ((attempt.keeps_on line).operands position).eq_of_missing hlabel ?_
    intro table htable
    rwa [List.mem_singleton.1 htable]

/-! ## Many attempts -/

namespace Line

variable {line : Line}

theorem after_append (line : Line) (attempts later : List Attempt) :
    line.after (attempts ++ later) = (line.after attempts).after later := by
  induction attempts generalizing line with
  | nil => rfl
  | cons attempt rest ih => exact ih (attempt.on line).value.line

theorem IsInert.after_eq (h : line.IsInert) (attempts : List Attempt) :
    line.after attempts = line := by
  induction attempts with
  | nil => rfl
  | cons attempt rest ih => rw [after, h attempt, ih]

theorem IsInert.false_notMem_answers (h : line.IsInert) (attempts : List Attempt) :
    false ∉ line.answers attempts := by
  induction attempts with
  | nil => exact List.not_mem_nil
  | cons attempt rest ih =>
    rw [answers, h attempt]
    simpa using ih

/-- What an attempt keeps, any number of them keep. -/
theorem keeps_after (line : Line) (attempts : List Attempt) :
    line.Keeps (attempts.map Attempt.symbols) (line.after attempts) := by
  induction attempts generalizing line with
  | nil => exact Keeps.refl [] line
  | cons attempt rest ih => exact (attempt.keeps_on line).trans (ih (attempt.on line).value.line)

theorem count_false_answers_le (line : Line) (attempts : List Attempt) :
    (line.answers attempts).count false ≤ 1 := by
  induction attempts generalizing line with
  | nil => exact Nat.zero_le 1
  | cons attempt rest ih =>
    rw [answers]
    cases hok : (attempt.on line).value.ok with
    | true =>
      rw [List.count_cons_of_ne (by decide)]
      exact ih (attempt.on line).value.line
    | false =>
      -- the flag stops all further attempts
      have hinert := isInert_of_skipped (.inl (attempt.flagged_on hok))
      have hrest := List.count_eq_zero.2 (hinert.false_notMem_answers rest)
      rw [List.count_cons_self]
      omega

/-- **A line fails at most once.** Take attempts at a line, each with its own table, settings, image
and journal. At most one of them fails, and together they keep the line but for its flag, the places
of its operands and addresses that their tables have for its labels. A further attempt is accounted
for at the line that they leave (`Attempt.Accounts`). If it fails, the line is flagged, and whatever
follows, the next attempt finds that line, succeeds, and leaves the line, its image and its journal
as they are. -/
theorem attempts_fail_at_most_once (line : Line) (attempts : List Attempt) :
    (line.answers attempts).count false ≤ 1 ∧
      line.Keeps (attempts.map Attempt.symbols) (line.after attempts) ∧
      ∀ attempt : Attempt, attempt.Accounts (line.after attempts) ∧
        let outcome := attempt.on (line.after attempts)
        (outcome.value.ok = false → outcome.value.line.flagged = true ∧
          ∀ (later : List Attempt) (next : Attempt),
            line.after (attempts ++ attempt :: later) = outcome.value.line ∧
              next.on outcome.value.line =
                ⟨⟨outcome.value.line, next.image, true⟩, next.journal⟩) := by
  refine ⟨line.count_false_answers_le attempts, line.keeps_after attempts, ?_⟩
  intro attempt
  refine ⟨attempt.accounts (line.after attempts), ?_⟩
  intro outcome hfails
  have hflagged : outcome.value.line.flagged = true := attempt.flagged_on hfails
  have hinert := isInert_of_skipped (.inl hflagged)
  refine ⟨hflagged, ?_⟩
  intro later next
  refine ⟨?_, hinert next⟩
  rw [after_append]
  exact hinert.after_eq later

end Line

/-- A line with two labels. -/
def compareLine : Line :=
  { number := 3, text := "cmp MAIN, EXT", opcode? := some .cmp
    source := { operand := .direct { name := "MAIN" } }
    dest := { operand := .direct { name := "EXT" } } }

/-- Both labels are in the table. -/
def Attempt.withBoth : Attempt :=
  ⟨⟨[⟨"MAIN", .code 100⟩, ⟨"EXT", .external 17⟩], by decide⟩, {}, .new {}, .empty⟩

/-- One label has moved, and the other is lost. -/
def Attempt.withOne : Attempt :=
  ⟨⟨[⟨"MAIN", .code 200⟩], by decide⟩, {}, .new {}, .empty⟩

/-- The second of three attempts fails. It gives the first label its new address and leaves the other
label as the attempt before left it, and the third attempt is one too late. -/
theorem Line.attempts_fail_at_most_once_compareLine :
    let failed := (Attempt.withOne.on (compareLine.after [.withBoth])).value.line
    compareLine.answers [.withBoth, .withOne, .withBoth] = [true, false, true] ∧
      failed.source.operand = .direct ⟨"MAIN", some (.code 200)⟩ ∧
      failed.dest.operand = .direct ⟨"EXT", some (.external 17)⟩ ∧ failed.flagged = true ∧
      compareLine.after [.withBoth, .withOne, .withBoth] = failed ∧
      Attempt.withBoth.on failed =
        ⟨⟨failed, Attempt.withBoth.image, true⟩, Attempt.withBoth.journal⟩ := by
  intro failed
  obtain ⟨-, -, hnext⟩ := attempts_fail_at_most_once compareLine [.withBoth]
  obtain ⟨hflagged, hinert⟩ := (hnext .withOne).2 (by decide +kernel)
  obtain ⟨hafter, hlast⟩ := hinert [.withBoth] .withBoth
  exact ⟨by decide +kernel, by decide +kernel, by decide +kernel, hflagged, hafter, hlast⟩

end SecondPass
