import SecondPass.Proofs.Run

/-!
# Uses of labels

Every label operand of an encoded line has one word in the code, and `labelUses` lists the labels
with the places of these words. The places ascend (`labelUses_pairwise_lt`), the word in such a
place is the word of the label (`getElem?_codeLayout_of_mem_labelUses`), and a word of code that is
not absolute is always one of them (`exists_labelUse_of_era?_ne`).
-/

namespace SecondPass

/-! ## Operands in a line -/

/-- The slot in a position. -/
def Line.slot (line : Line) : Position → Slot
  | .source => line.source
  | .dest => line.dest

theorem Line.mem_slots_iff {line : Line} {slot : Slot} :
    slot ∈ line.slots ↔ ∃ position, line.slot position = slot := by
  constructor
  · intro h
    obtain rfl | rfl : slot = line.source ∨ slot = line.dest := by simpa [slots] using h
    · exact ⟨.source, rfl⟩
    · exact ⟨.dest, rfl⟩
  · rintro ⟨_ | _, rfl⟩ <;> simp [slots, slot]

/-- How many words of a line come before the words of an operand. -/
def Line.operandOffset (line : Line) : Position → Nat
  | .source => 1
  | .dest => 1 + line.source.operand.size

/-- The labels that an encoded line uses, each with the number of words before its own. -/
def Line.labelUses (line : Line) : List (LabelRef × Nat) :=
  if line.isEncodable then
    [Position.source, Position.dest].filterMap fun position =>
      (line.slot position).operand.label?.map fun label => (label, line.operandOffset position)
  else []

/-- The labels that lines use, each with the number of words of code before its own. -/
def labelUses : List Line → List (LabelRef × Nat)
  | [] => []
  | line :: rest =>
    line.labelUses ++ (labelUses rest).map fun use => (use.1, line.size + use.2)

/-- A line that is placed and is no pair of registers has both slots placed. -/
theorem Line.slot_place {line : Line} (hline : line.isEncodable = true)
    (hpair : line.isRegisterPair = false) (lookup : String → Option Address) (config : Config)
    (address : Nat → Nat) (position : Position) :
    (line.place lookup config address).slot position =
      (line.slot position).place lookup (address (line.operandOffset position)) := by
  rw [place, if_pos hline, if_neg (by simp [hpair])]
  cases position <;> rfl

/-- An encoded line has its operands settled. Two registers are so to begin with. -/
theorem Line.operand_place {line : Line} (hline : line.isEncodable = true)
    (lookup : String → Option Address) (config : Config) (address : Nat → Nat)
    (position : Position) :
    ((line.place lookup config address).slot position).operand =
      (line.slot position).operand.settle lookup := by
  by_cases hpair : line.isRegisterPair = true
  · obtain ⟨source, dest, hsource, hdest⟩ := isRegisterPair_iff.1 hpair
    rw [place, if_pos hline, if_pos hpair]
    cases position with
    | source => simp [slot, hsource]
    | dest => simp [slot, hdest]
  · rw [slot_place hline (by simpa using hpair)]
    rfl

/-- An operand is a register exactly if its mode is. -/
theorem Operand.isSome_register?_eq (operand : Operand) :
    operand.register?.isSome = (operand.mode? == some .register) := by
  cases operand <;> rfl

theorem Operand.size_pos_of_label? {operand : Operand} {label : LabelRef}
    (h : operand.label? = some label) : 0 < operand.size := by
  cases operand <;> simp_all [label?, size]

theorem Operand.isPresent_of_label? {operand : Operand} {label : LabelRef}
    (h : operand.label? = some label) : operand.isPresent = true := by
  cases operand <;> simp_all [label?, isPresent]

/-- The word of a label is the first of its operand. -/
theorem Operand.getElem?_layout_zero {operand : Operand} {label : LabelRef}
    (h : operand.label? = some label) (lookup : String → Option Address) (position : Position) :
    (operand.layout lookup position)[0]? = some (label.layout lookup) := by
  cases operand <;> simp_all [label?, layout]

/-- Only the first word of a label operand is not absolute. -/
theorem Operand.eq_zero_of_era?_ne {operand : Operand} {lookup : String → Option Address}
    {position : Position} {j : Nat} {word : Word}
    (hword : (operand.layout lookup position)[j]? = some word)
    (hera : word.era? ≠ some .absolute) : j = 0 ∧ ∃ label, operand.label? = some label := by
  cases operand with
  | absent => simp [layout] at hword
  | immediate value =>
    rcases j with _ | j
    · obtain rfl : _ = word := by simpa [layout] using hword
      simp at hera
    · simp [layout] at hword
  | direct label =>
    rcases j with _ | j
    · exact ⟨rfl, label, rfl⟩
    · simp [layout] at hword
  | indexed label index =>
    rcases j with _ | _ | j
    · exact ⟨rfl, label, rfl⟩
    · obtain rfl : _ = word := by simpa [layout] using hword
      simp at hera
    · simp [layout] at hword
  | register number =>
    rcases j with _ | j
    · obtain ⟨source, dest, rfl⟩ : ∃ source dest, Word.registers source dest = word := by
        cases position
        · exact ⟨_, _, by simpa [layout] using hword⟩
        · exact ⟨_, _, by simpa [layout] using hword⟩
      simp [Word.registers] at hera
    · cases position <;> simp [layout] at hword

/-! ## Words of labels in a line -/

/-- A line with a label operand is no pair of registers. -/
theorem Line.isRegisterPair_of_label? {line : Line} {position : Position} {label : LabelRef}
    (h : (line.slot position).operand.label? = some label) : line.isRegisterPair = false := by
  have hregister : (line.slot position).operand.register? = none := by
    cases hoperand : (line.slot position).operand <;>
      simp_all [Operand.label?, Operand.register?]
  cases position with
  | source => simp [isRegisterPair, show line.source.operand.register? = none from hregister]
  | dest => simp [isRegisterPair, show line.dest.operand.register? = none from hregister]

/-- The words of an operand that does not share its word lie inside its line. -/
theorem Line.operandOffset_add_lt_size {line : Line} (hline : line.isEncodable = true)
    (hpair : line.isRegisterPair = false) {position : Position} {j : Nat}
    (hj : j < (line.slot position).operand.size) :
    line.operandOffset position + j < line.size := by
  rw [size, if_pos hline, if_neg (by simp [hpair])]
  cases position with
  | source => simp only [slot, operandOffset] at hj ⊢; omega
  | dest => simp only [slot, operandOffset] at hj ⊢; omega

theorem Line.operandOffset_lt_size {line : Line} {position : Position} {label : LabelRef}
    (hline : line.isEncodable = true)
    (h : (line.slot position).operand.label? = some label) :
    line.operandOffset position < line.size :=
  operandOffset_add_lt_size hline (isRegisterPair_of_label? h) (Operand.size_pos_of_label? h)

/-- The words of an operand that does not share its word stand in its place in the line. -/
theorem Line.getElem?_layout_operandOffset_add {line : Line} (hline : line.isEncodable = true)
    (hpair : line.isRegisterPair = false) (lookup : String → Option Address)
    {position : Position} {j : Nat} (hj : j < (line.slot position).operand.size) :
    (line.layout lookup)[line.operandOffset position + j]? =
      ((line.slot position).operand.layout lookup position)[j]? := by
  obtain ⟨opcode, hopcode, hflagged⟩ := isEncodable_iff.1 hline
  rw [layout_of_isEncodable hopcode hflagged, operandsLayout_of_not_isRegisterPair hpair]
  cases position with
  | source =>
    have hlength : j < (line.source.operand.layout lookup .source).length := by
      rw [length_operand_layout]
      exact hj
    rw [operandOffset, Nat.add_comm, List.getElem?_cons_succ, List.getElem?_append_left hlength]
    rfl
  | dest =>
    -- the words of the source come first, so the place counts from behind them
    have hplace : 1 + line.source.operand.size + j =
        (line.source.operand.layout lookup .source).length + j + 1 := by
      rw [length_operand_layout]
      omega
    rw [operandOffset, hplace, List.getElem?_cons_succ,
      List.getElem?_append_right (Nat.le_add_right _ _), Nat.add_sub_cancel_left]
    rfl

/-- The word of a label stands in the place of its operand. -/
theorem Line.getElem?_layout_operandOffset {line : Line} {position : Position}
    {label : LabelRef} (hline : line.isEncodable = true)
    (h : (line.slot position).operand.label? = some label)
    (lookup : String → Option Address) :
    (line.layout lookup)[line.operandOffset position]? = some (label.layout lookup) := by
  have hword := getElem?_layout_operandOffset_add hline (isRegisterPair_of_label? h) lookup
    (Operand.size_pos_of_label? h)
  rw [Nat.add_zero] at hword
  rw [hword, Operand.getElem?_layout_zero h]

/-- A word of a line that is not absolute is the word of a label. -/
theorem Line.exists_label_of_era?_ne {line : Line} {lookup : String → Option Address} {j : Nat}
    {word : Word} (hword : (line.layout lookup)[j]? = some word)
    (hera : word.era? ≠ some .absolute) :
    line.isEncodable = true ∧ ∃ position label,
      (line.slot position).operand.label? = some label ∧ j = line.operandOffset position := by
  cases hline : line.isEncodable with
  | false => simp [layout_of_not_isEncodable hline] at hword
  | true =>
    refine ⟨rfl, ?_⟩
    obtain ⟨opcode, hopcode, hflagged⟩ := isEncodable_iff.1 hline
    rw [layout_of_isEncodable hopcode hflagged] at hword
    -- the instruction word and a word of two registers are absolute, so an operand is left
    rcases j with _ | j
    · obtain rfl : _ = word := by simpa using hword
      simp [Word.instruction] at hera
    rw [List.getElem?_cons_succ] at hword
    cases hpair : line.isRegisterPair with
    | true =>
      obtain ⟨source, dest, hwords⟩ := operandsLayout_of_isRegisterPair hpair lookup
      rw [hwords, List.getElem?_singleton] at hword
      obtain ⟨-, rfl⟩ : j = 0 ∧ Word.registers (some source) (some dest) = word := by
        simpa using hword
      simp [Word.registers] at hera
    | false =>
      rw [operandsLayout_of_not_isRegisterPair hpair] at hword
      rcases Nat.lt_or_ge j line.source.operand.size with hj | hj
      · rw [List.getElem?_append_left (by rwa [length_operand_layout])] at hword
        obtain ⟨rfl, label, hlabel⟩ := Operand.eq_zero_of_era?_ne hword hera
        exact ⟨.source, label, hlabel, rfl⟩
      · rw [List.getElem?_append_right (by rwa [length_operand_layout]),
          length_operand_layout] at hword
        obtain ⟨hzero, label, hlabel⟩ := Operand.eq_zero_of_era?_ne hword hera
        refine ⟨.dest, label, hlabel, ?_⟩
        rw [operandOffset]
        omega

/-! ## Words of labels in the code -/

theorem Line.mem_labelUses_iff {line : Line} {label : LabelRef} {offset : Nat} :
    (label, offset) ∈ line.labelUses ↔ line.isEncodable = true ∧ ∃ position,
      (line.slot position).operand.label? = some label ∧ line.operandOffset position = offset := by
  have hposition : ∀ position, position ∈ [Position.source, Position.dest] := by
    intro position
    cases position <;> simp
  unfold Line.labelUses
  cases line.isEncodable with
  | false => simp
  | true =>
    simp only [if_true, List.mem_filterMap, Option.map_eq_some_iff, Prod.mk.injEq, true_and]
    constructor
    · rintro ⟨position, -, used, hused, rfl, hoffset⟩
      exact ⟨position, hused, hoffset⟩
    · rintro ⟨position, hlabel, hoffset⟩
      exact ⟨position, hposition position, label, hlabel, rfl, hoffset⟩

/-- A label is used in a place when an operand of an encoded line there names it. -/
theorem mem_labelUses_iff {lines : List Line} {label : LabelRef} {offset : Nat} :
    (label, offset) ∈ labelUses lines ↔ ∃ i line position, lines[i]? = some line ∧
      line.isEncodable = true ∧ (line.slot position).operand.label? = some label ∧
      codeSize (lines.take i) + line.operandOffset position = offset := by
  induction lines generalizing offset with
  | nil => simp [labelUses]
  | cons first rest ih =>
    rw [labelUses, List.mem_append, Line.mem_labelUses_iff]
    constructor
    · rintro (⟨hline, position, hlabel, hoffset⟩ | hrest)
      · exact ⟨0, first, position, rfl, hline, hlabel, by simpa using hoffset⟩
      · obtain ⟨⟨used, before⟩, hused, heq⟩ := List.mem_map.1 hrest
        obtain ⟨rfl, rfl⟩ : used = label ∧ first.size + before = offset := by simpa using heq
        obtain ⟨i, line, position, hi, hline, hlabel, rfl⟩ := ih.1 hused
        exact ⟨i + 1, line, position, hi, hline, hlabel, by simp [Nat.add_assoc]⟩
    · rintro ⟨i, line, position, hi, hline, hlabel, rfl⟩
      cases i with
      | zero =>
        obtain rfl : first = line := by simpa using hi
        exact Or.inl ⟨hline, position, hlabel, by simp⟩
      | succ i =>
        have hrest : rest[i]? = some line := by simpa using hi
        have huse := ih.2 ⟨i, line, position, hrest, hline, hlabel, rfl⟩
        exact Or.inr (List.mem_map.2 ⟨_, huse, by simp [Nat.add_assoc]⟩)

/-- The word in the place of a label is the word of the label. -/
theorem getElem?_codeLayout_of_mem_labelUses {lines : List Line} {label : LabelRef} {offset : Nat}
    (h : (label, offset) ∈ labelUses lines) (lookup : String → Option Address) :
    (codeLayout lookup lines)[offset]? = some (label.layout lookup) := by
  obtain ⟨i, line, position, hi, hline, hlabel, rfl⟩ := mem_labelUses_iff.1 h
  rw [getElem?_codeLayout lookup hi (line.operandOffset_lt_size hline hlabel),
    line.getElem?_layout_operandOffset hline hlabel]

theorem getElem?_layout_of_mem_labelUses {program : FirstPass} {label : LabelRef} {offset : Nat}
    (h : (label, offset) ∈ labelUses program.lines) :
    program.layout[offset]? = some (label.layout program.lookup) := by
  have hword := getElem?_codeLayout_of_mem_labelUses h program.lookup
  rw [FirstPass.layout, List.getElem?_append_left (List.getElem?_eq_some_iff.1 hword).1, hword]

/-- A word of code that is not absolute stands in the place of a label. -/
theorem exists_labelUse_of_era?_ne {lines : List Line} {lookup : String → Option Address}
    {offset : Nat} {word : Word} (hword : (codeLayout lookup lines)[offset]? = some word)
    (hera : word.era? ≠ some .absolute) : ∃ label, (label, offset) ∈ labelUses lines := by
  induction lines generalizing offset with
  | nil => simp [codeLayout] at hword
  | cons first rest ih =>
    rw [codeLayout_cons] at hword
    simp only [labelUses, List.mem_append]
    rcases Nat.lt_or_ge offset first.size with hoffset | hoffset
    · rw [List.getElem?_append_left (by rwa [Line.length_layout])] at hword
      obtain ⟨hline, position, label, hlabel, rfl⟩ := Line.exists_label_of_era?_ne hword hera
      exact ⟨label, Or.inl (Line.mem_labelUses_iff.2 ⟨hline, position, hlabel, rfl⟩)⟩
    · rw [List.getElem?_append_right (by rwa [Line.length_layout]), Line.length_layout] at hword
      obtain ⟨label, hlabel⟩ := ih hword
      refine ⟨label, Or.inr (List.mem_map.2 ⟨_, hlabel, ?_⟩)⟩
      rw [Nat.add_sub_cancel' hoffset]

theorem Line.labelUses_pairwise_lt (line : Line) :
    line.labelUses.Pairwise fun a b => a.2 < b.2 := by
  unfold Line.labelUses
  cases line.isEncodable with
  | false => exact List.Pairwise.nil
  | true =>
    rw [if_pos rfl, List.pairwise_filterMap, List.pairwise_pair]
    intro use huse other hother
    obtain ⟨label, hlabel, rfl⟩ := Option.map_eq_some_iff.1 huse
    obtain ⟨otherLabel, -, rfl⟩ := Option.map_eq_some_iff.1 hother
    have hpos : 0 < line.source.operand.size := Operand.size_pos_of_label? hlabel
    show 1 < 1 + line.source.operand.size
    omega

/-- The places of labels ascend. -/
theorem labelUses_pairwise_lt (lines : List Line) :
    (labelUses lines).Pairwise fun a b => a.2 < b.2 := by
  induction lines with
  | nil => exact List.Pairwise.nil
  | cons line rest ih =>
    rw [labelUses, List.pairwise_append]
    -- places in one line, places in the rest, and a place in the line before one in the rest
    refine ⟨line.labelUses_pairwise_lt, ?_, ?_⟩
    · rw [List.pairwise_map]
      exact ih.imp fun h => Nat.add_lt_add_left h line.size
    · rintro ⟨label, offset⟩ huse other hother
      obtain ⟨⟨used, before⟩, -, rfl⟩ := List.mem_map.1 hother
      obtain ⟨hline, position, hlabel, rfl⟩ := Line.mem_labelUses_iff.1 huse
      have hlt := line.operandOffset_lt_size hline hlabel
      show line.operandOffset position < line.size + before
      omega

end SecondPass
