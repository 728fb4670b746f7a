import SecondPass.Proofs.Run
import SecondPass.Proofs.Tables

/-!
# Moving a module

A relocation tag promises how a word behaves when the module is loaded `k` words further on: a
relocatable payload grows by `k`, every other word of code stays as it is, and so do all the data.
Each part of an assembly is moved by a function of its own (`Word.move`, `Line.move`, …), and
each step of the second pass is shown to commute with the move, from the look-up of a name
(`lookup_move`) to the lines (`placeLines_move`) and the views of an assembly. A module can move as
far as the addresses of its data have 64 bits (`FirstPass.CanMove`).
-/

namespace SecondPass

/-! ## What moves -/

/-- Moves an address with the module: local addresses move, external ones do not. -/
def Address.move (k : Nat) : Address → Address
  | .code n => .code (n + k)
  | .data n => .data (n + k)
  | .external n => .external n

/-- Moves the code of a module whose data addresses count from the start of the data. -/
def Address.moveCode (k : Nat) : Address → Address
  | .code n => .code (n + k)
  | address => address

/-- Moves a word with the module. -/
def Word.move (k : Nat) (word : Word) : Word :=
  if word.era? = some .relocatable then
    .tagged .relocatable (BitVec.ofNat 12 (word.payload + k))
  else word

/-- Moves the resolved address of a label. -/
def LabelRef.move (k : Nat) (label : LabelRef) : LabelRef :=
  { label with resolved := label.resolved.map (Address.move k) }

/-- Moves the resolved address of the label of an operand. -/
def Operand.move (k : Nat) : Operand → Operand
  | .direct label => .direct (label.move k)
  | .indexed label index => .indexed (label.move k) index
  | operand => operand

/-- Moves what a slot refers to and where its word is. -/
def Slot.move (k : Nat) (slot : Slot) : Slot where
  operand := slot.operand.move k
  emittedAt := slot.emittedAt.map (· + k)

/-- Moves both slots of a line. -/
def Line.move (k : Nat) (line : Line) : Line :=
  { line with source := line.source.move k, dest := line.dest.move k }

/-- Moves the code labels of a table. -/
def SymbolTable.moveCode (k : Nat) (table : SymbolTable .pending) : SymbolTable .pending :=
  ⟨table.symbols.map fun symbol => { symbol with address := symbol.address.moveCode k }, by
    simpa [List.map_map, Function.comp_def] using table.names_nodup⟩

/-- Moves a program: its code labels and the end of its code. -/
def FirstPass.move (k : Nat) (program : FirstPass) : FirstPass :=
  { program with
    symbols := program.symbols.moveCode k
    instructionCount := program.instructionCount + k }

/-- A program can move by `k` words if the addresses of its data still have 64 bits then. -/
def FirstPass.CanMove (k : Nat) (program : FirstPass) : Prop :=
  ∀ symbol ∈ program.symbols.symbols, symbol.address.isData = true →
    symbol.address.number + program.instructionCount + k < UInt64.size

instance (k : Nat) (program : FirstPass) : Decidable (program.CanMove k) :=
  inferInstanceAs (Decidable (∀ _ ∈ _, _ → _))

/-- Moves the first load address. -/
def Config.move (k : Nat) (config : Config) : Config :=
  { config with firstAddress := config.firstAddress + k }

/-! ## Addresses and words -/

@[simp] theorem Address.isExternal_move (k : Nat) (address : Address) :
    (address.move k).isExternal = address.isExternal := by
  cases address <;> rfl

theorem Address.number_move {address : Address} (h : address.isExternal = false) (k : Nat) :
    (address.move k).number = address.number + k := by
  cases address with
  | external n => simp [isExternal] at h
  | _ => rfl

/-- Words that are not relocatable stay as they are. -/
theorem Word.move_tagged_of_ne {era : Era} (h : era ≠ .relocatable) (k : Nat)
    (payload : BitVec 12) : (tagged era payload).move k = tagged era payload := by
  rw [Word.move, if_neg]
  rw [era?_tagged]
  exact fun heq => h (Option.some.inj heq)

@[simp] theorem Word.move_tagged_absolute (k : Nat) (payload : BitVec 12) :
    (tagged .absolute payload).move k = tagged .absolute payload :=
  move_tagged_of_ne (by decide) k payload

@[simp] theorem Word.move_instruction (k : Nat) (opcode : Opcode) (source dest : Nat) :
    (instruction opcode source dest).move k = instruction opcode source dest :=
  move_tagged_absolute k _

@[simp] theorem Word.move_registers (k : Nat) (source dest : Option Nat) :
    (registers source dest).move k = registers source dest :=
  move_tagged_absolute k _

theorem Word.move_tagged_relocatable (k n : Nat) :
    (tagged .relocatable (BitVec.ofNat 12 n)).move k =
      tagged .relocatable (BitVec.ofNat 12 (n + k)) := by
  have hpayload : BitVec.ofNat 12 (n % 2 ^ 12 + k) = BitVec.ofNat 12 (n + k) := by
    apply BitVec.eq_of_toNat_eq
    rw [BitVec.toNat_ofNat, BitVec.toNat_ofNat]
    omega
  rw [Word.move, if_pos (by simp), payload_tagged, BitVec.toNat_ofNat, hpayload]

/-- The word of a moved address is the moved word. -/
theorem Address.word_move (k : Nat) (address : Address) :
    (address.move k).word = address.word.move k := by
  cases address with
  | code n => exact (Word.move_tagged_relocatable k n).symm
  | data n => exact (Word.move_tagged_relocatable k n).symm
  | external n => exact (Word.move_tagged_of_ne (by decide) k _).symm

/-! ## Look-up -/

theorem SymbolTable.address?_moveCode (k : Nat) (table : SymbolTable .pending) (name : String) :
    (table.moveCode k).address? name = (table.address? name).map (Address.moveCode k) := by
  simp only [address?, get?_eq_find?, moveCode, List.find?_map, Option.map_map]
  rfl

theorem FirstPass.CanMove.add_lt {k : Nat} {program : FirstPass} (h : program.CanMove k)
    {name : String} {n : Nat} (hname : program.symbols.address? name = some (.data n)) :
    n + program.instructionCount + k < UInt64.size := by
  obtain ⟨symbol, hsymbol, haddress⟩ := Option.map_eq_some_iff.1 hname
  have hbound := h symbol (SymbolTable.get?_eq_some_iff.1 hsymbol).1
  rw [haddress] at hbound
  exact hbound rfl

/-- Every name of a program that can move lives where it lived, moved. -/
theorem lookup_move {k : Nat} {program : FirstPass} (h : program.CanMove k) (name : String) :
    (program.move k).lookup name = (program.lookup name).map (Address.move k) := by
  unfold FirstPass.lookup FirstPass.move
  rw [SymbolTable.address?_moveCode]
  cases hname : program.symbols.address? name with
  | none => rfl
  | some address =>
    cases address with
    | data n =>
      -- neither sum wraps around, so both are the sum of all three numbers
      have hbound := h.add_lt hname
      have hbefore : (n + program.instructionCount) % UInt64.size =
          n + program.instructionCount := Nat.mod_eq_of_lt (by omega)
      have hafter : (n + (program.instructionCount + k)) % UInt64.size =
          n + program.instructionCount + k := by
        rw [← Nat.add_assoc, Nat.mod_eq_of_lt hbound]
      simp only [Option.map_some, Address.moveCode, Address.move, hbefore, hafter]
    | _ => rfl

theorem LabelRef.move_of_resolved_eq_none {label : LabelRef} (h : label.resolved = none)
    (k : Nat) : label.move k = label := by
  obtain ⟨name, resolved⟩ := label
  simp_all [move]

theorem Slot.move_of_isFresh {slot : Slot} (h : slot.IsFresh) (k : Nat) : slot.move k = slot := by
  obtain ⟨hlabel, hemitted⟩ := h
  obtain ⟨operand, emittedAt⟩ := slot
  cases operand with
  | direct label =>
    have hmove := label.move_of_resolved_eq_none hlabel k
    simp_all [Slot.move, Operand.move]
  | indexed label index =>
    have hmove := label.move_of_resolved_eq_none hlabel k
    simp_all [Slot.move, Operand.move]
  | _ => simp_all [Slot.move, Operand.move]

/-- A line with fresh slots has nothing to move. -/
theorem Line.move_of_isFresh {line : Line} (hsource : line.source.IsFresh)
    (hdest : line.dest.IsFresh) (k : Nat) : line.move k = line := by
  rw [Line.move, Slot.move_of_isFresh hsource, Slot.move_of_isFresh hdest]

/-! ## Layout

From here on `moved` looks names up as `lookup` does and moves what it finds. -/

section Moved

variable {k : Nat} {lookup moved : String → Option Address}
  (hmoved : ∀ name, moved name = (lookup name).map (Address.move k))

include hmoved

theorem LabelRef.layout_move {label : LabelRef} (h : (lookup label.name).isSome = true) :
    label.layout moved = (label.layout lookup).move k := by
  obtain ⟨address, haddress⟩ := Option.isSome_iff_exists.1 h
  simp only [layout, hmoved, haddress, Option.map_some]
  exact address.word_move k

theorem LabelRef.settle_move {label : LabelRef} (h : (lookup label.name).isSome = true) :
    label.settle moved = (label.settle lookup).move k := by
  obtain ⟨address, haddress⟩ := Option.isSome_iff_exists.1 h
  simp [settle, move, hmoved, haddress]

theorem Operand.resolves_move (config : Config) (operand : Operand) :
    operand.resolves moved (config.move k) = operand.resolves lookup config := by
  cases operand with
  | direct label => simp [resolves, hmoved]
  | indexed label index => simp [resolves, hmoved]
  | _ => rfl

/-- An operand that resolves has moved words. -/
theorem Operand.layout_move {config : Config} {operand : Operand}
    (h : operand.resolves lookup config = true) (position : Position) :
    operand.layout moved position = (operand.layout lookup position).map (Word.move k) := by
  cases operand with
  | absent => rfl
  | immediate value => simp [layout]
  | direct label => simp [layout, label.layout_move hmoved h]
  | indexed label index => simp [layout, label.layout_move hmoved h]
  | register number => cases position <;> simp [layout]

theorem Operand.settle_move {config : Config} {operand : Operand}
    (h : operand.resolves lookup config = true) :
    operand.settle moved = (operand.settle lookup).move k := by
  cases operand with
  | direct label => simp [settle, move, label.settle_move hmoved h]
  | indexed label index => simp [settle, move, label.settle_move hmoved h]
  | _ => rfl

theorem Operand.complaints_move (config : Config) (line : Nat) (operand : Operand) :
    operand.complaints moved (config.move k) line = operand.complaints lookup config line := by
  rw [complaints, operand.resolves_move hmoved]
  rfl

theorem Line.fails_move (config : Config) (line : Line) :
    line.fails moved (config.move k) = line.fails lookup config := by
  rw [fails, Operand.resolves_move hmoved, Operand.resolves_move hmoved]
  rfl

theorem Line.complaints_move (config : Config) (line : Line) :
    line.complaints moved (config.move k) = line.complaints lookup config := by
  rw [complaints, Operand.complaints_move hmoved, Operand.complaints_move hmoved]
  rfl

theorem operandsLayout_move {config : Config} {source dest : Operand}
    (hsource : source.resolves lookup config = true)
    (hdest : dest.resolves lookup config = true) :
    operandsLayout moved source dest =
      (operandsLayout lookup source dest).map (Word.move k) := by
  fun_cases operandsLayout lookup source dest with
  | case1 s d => simp [operandsLayout]
  | case2 =>
    rw [operandsLayout, List.map_append, Operand.layout_move hmoved hsource,
      Operand.layout_move hmoved hdest]
    assumption

/-- A line without a fault has moved words. -/
theorem Line.layout_move {config : Config} {line : Line}
    (h : line.fails lookup config = false) :
    line.layout moved = (line.layout lookup).map (Word.move k) := by
  cases hline : line.isEncodable with
  | false => rw [layout_of_not_isEncodable hline, layout_of_not_isEncodable hline, List.map_nil]
  | true =>
    obtain ⟨opcode, hopcode, hflagged⟩ := isEncodable_iff.1 hline
    obtain ⟨hsource, hdest⟩ := resolves_of_fails_eq_false hline h
    rw [layout_of_isEncodable hopcode hflagged, layout_of_isEncodable hopcode hflagged,
      List.map_cons, Word.move_instruction, operandsLayout_move hmoved hsource hdest]

theorem codeLayout_move {config : Config} {lines : List Line}
    (h : ∀ line ∈ lines, line.fails lookup config = false) :
    codeLayout moved lines = (codeLayout lookup lines).map (Word.move k) := by
  induction lines with
  | nil => rfl
  | cons line rest ih =>
    rw [codeLayout_cons, codeLayout_cons, List.map_append,
      Line.layout_move hmoved (h line List.mem_cons_self),
      ih fun other hother => h other (List.mem_cons_of_mem _ hother)]

/-! ## Lines -/

theorem Slot.place_move {config : Config} {slot : Slot} (hfresh : slot.IsFresh)
    (h : slot.operand.resolves lookup config = true) (address : Nat) :
    slot.place moved (address + k) = (slot.place lookup address).move k := by
  simp only [place, move, Operand.settle_move hmoved h, hfresh.2, Slot.mk.injEq, true_and]
  cases slot.operand.isPresent <;> rfl

/-- A line without a fault is placed where it was placed, moved. The addresses only need to have
moved as far as the words of the line go. -/
theorem Line.place_move {config : Config} {line : Line} {address movedAddress : Nat → Nat}
    (hsource : line.source.IsFresh) (hdest : line.dest.IsFresh)
    (h : line.fails lookup config = false)
    (haddress : ∀ count ≤ line.size, movedAddress count = address count + k) :
    line.place moved (config.move k) movedAddress = (line.place lookup config address).move k := by
  unfold place
  rw [fails_move hmoved]
  -- a line that remembers nothing has nothing to move
  cases hline : line.isEncodable with
  | false => exact (move_of_isFresh hsource hdest k).symm
  | true =>
    cases hpair : line.isRegisterPair with
    | true =>
      refine (Line.move_of_isFresh ?_ ?_ k).symm
      · exact hsource
      · exact hdest
    | false =>
      have hsize : line.size = 1 + line.source.operand.size + line.dest.operand.size := by
        simp [size, hline, hpair]
      obtain ⟨hs, hd⟩ := resolves_of_fails_eq_false hline h
      simp only [Bool.false_eq_true, if_true, if_false]
      rw [haddress 1 (by omega), haddress (1 + line.source.operand.size) (by omega),
        Slot.place_move hmoved hsource hs, Slot.place_move hmoved hdest hd]
      rfl

/-- Lines without a fault are placed where they were placed, moved. -/
theorem placeLines_move {config : Config} {lines : List Line} {address movedAddress : Nat → Nat}
    (hfresh : ∀ line ∈ lines, line.source.IsFresh ∧ line.dest.IsFresh)
    (h : ∀ line ∈ lines, line.fails lookup config = false)
    (haddress : ∀ count ≤ codeSize lines, movedAddress count = address count + k) :
    placeLines moved (config.move k) movedAddress lines =
      (placeLines lookup config address lines).map (Line.move k) := by
  induction lines generalizing address movedAddress with
  | nil => rfl
  | cons line rest ih =>
    rw [codeSize_cons] at haddress
    obtain ⟨hsource, hdest⟩ := hfresh line List.mem_cons_self
    -- the line needs the addresses of its own words, the rest those past them
    have hline : ∀ count ≤ line.size, movedAddress count = address count + k :=
      fun count hcount => haddress count (by omega)
    have hrest : ∀ count ≤ codeSize rest,
        movedAddress (line.size + count) = address (line.size + count) + k :=
      fun count hcount => haddress (line.size + count) (by omega)
    rw [placeLines, placeLines, List.map_cons,
      Line.place_move hmoved hsource hdest (h line List.mem_cons_self) hline,
      ih (fun other hother => hfresh other (List.mem_cons_of_mem _ hother))
        (fun other hother => h other (List.mem_cons_of_mem _ hother)) hrest]

end Moved

/-! ## Views of an assembly -/

theorem LabelRef.isExternal_move (k : Nat) (label : LabelRef) :
    (label.move k).isExternal = label.isExternal := by
  unfold isExternal move
  cases label.resolved <;> simp

theorem Slot.externalReference?_move (k : Nat) (slot : Slot) :
    (slot.move k).externalReference? =
      slot.externalReference?.map fun reference => (reference.1, reference.2 + k) := by
  obtain ⟨operand, emittedAt⟩ := slot
  cases operand <;> cases emittedAt <;>
    simp [externalReference?, move, Operand.move, Operand.label?, LabelRef.isExternal_move]
  all_goals split <;> rfl

theorem Assembly.externalReferences_move (k : Nat) {before after : Assembly}
    (h : after.lines = before.lines.map (Line.move k)) :
    after.externalReferences =
      before.externalReferences.map fun reference => (reference.1, reference.2 + k) := by
  have hslots : after.lines.flatMap Line.slots =
      (before.lines.flatMap Line.slots).map (Slot.move k) := by
    rw [h, List.flatMap_map, List.map_flatMap]
    rfl
  have hreference : Slot.externalReference? ∘ Slot.move k = fun slot =>
      slot.externalReference?.map fun reference => (reference.1, reference.2 + k) :=
    funext fun slot => slot.externalReference?_move k
  rw [externalReferences, hslots, List.filterMap_map, hreference, externalReferences,
    List.map_filterMap]

section Table

variable {k : Nat} {symbols moved : SymbolTable .final}
  (hmoved : ∀ name, moved.address? name = (symbols.address? name).map (Address.move k))

include hmoved

theorem Entry.problem?_move (entry : Entry) : entry.problem? moved = entry.problem? symbols := by
  rw [problem?_eq, problem?_eq, hmoved]
  cases symbols.address? entry.name with
  | none => rfl
  | some address => simp

theorem exports_move (entries : List Entry) :
    exports moved entries =
      (exports symbols entries).map fun label => (label.1, label.2 + k) := by
  rw [exports, exports, List.map_filterMap]
  congr 1
  funext name
  rw [export?_eq, export?_eq, hmoved]
  cases symbols.address? name with
  | none => rfl
  | some address =>
    cases hexternal : address.isExternal with
    | true => simp [hexternal]
    | false => simp [hexternal, Address.number_move]

end Table

/-! ## The moved program -/

theorem address?_relocate_move {k : Nat} {program : FirstPass} (h : program.CanMove k)
    (name : String) :
    ((program.move k).symbols.relocate (program.move k).instructionCount).address? name =
      ((program.symbols.relocate program.instructionCount).address? name).map (Address.move k) := by
  rw [address?_relocate, address?_relocate, lookup_move h]

/-- As far as both images reach, load addresses have moved. -/
theorem addressAfter_move {k count : Nat} {config : Config}
    (h : count ≤ config.usableCapacity) (hmoved : count ≤ (config.move k).usableCapacity) :
    (config.move k).addressAfter count = config.addressAfter count + k := by
  rw [Config.addressAfter, Config.addressAfter, Nat.min_eq_right h, Nat.min_eq_right hmoved]
  show config.firstAddress + k + count = config.firstAddress + count + k
  omega

section MovedProgram

variable {k : Nat} {program : FirstPass} {config : Config} (hmove : program.CanMove k)
  (hfits : (assemble program config).value.image.dropped = 0)
  (hfitsMoved : (assemble (program.move k) (config.move k)).value.image.dropped = 0)

include hmove hfits hfitsMoved

/-- Two programs that fit complain about the same entries and operands. -/
theorem diagnostics_move :
    (assemble (program.move k) (config.move k)).diagnostics =
      (assemble program config).diagnostics := by
  have hentries : Entry.complaint?
      ((program.move k).symbols.relocate (program.move k).instructionCount) =
        Entry.complaint? (program.symbols.relocate program.instructionCount) := by
    funext entry
    rw [Entry.complaint?, Entry.problem?_move (address?_relocate_move hmove)]
    rfl
  have hlines : Line.complaints (program.move k).lookup (config.move k) =
      Line.complaints program.lookup config :=
    funext fun line => line.complaints_move (lookup_move hmove) config
  rw [diagnostics_assemble, diagnostics_assemble, reportOverflow_of_dropped_eq_zero hfits,
    reportOverflow_of_dropped_eq_zero hfitsMoved, hentries, hlines]
  rfl

theorem errorCount_move :
    (assemble (program.move k) (config.move k)).value.errorCount =
      (assemble program config).value.errorCount := by
  have hlines : Line.fails (program.move k).lookup (config.move k) =
      Line.fails program.lookup config :=
    funext fun line => line.fails_move (lookup_move hmove) config
  rw [errorCount_assemble, errorCount_assemble, reportOverflow_of_dropped_eq_zero hfits,
    reportOverflow_of_dropped_eq_zero hfitsMoved, hlines]
  simp only [Entry.problem?_move (address?_relocate_move hmove)]
  rfl

/-- The code of a program that fits has moved word by word, and the data have stayed. -/
theorem words_move
    (hresolve : ∀ line ∈ program.lines, line.fails program.lookup config = false) :
    (assemble (program.move k) (config.move k)).value.image.words.toList =
      ((assemble program config).value.image.words.toList.take
          (codeSize program.lines)).map (Word.move k) ++
        (assemble program config).value.image.words.toList.drop (codeSize program.lines) := by
  have hcode : codeLayout (program.move k).lookup program.lines =
      (codeLayout program.lookup program.lines).map (Word.move k) :=
    codeLayout_move (lookup_move hmove) hresolve
  obtain ⟨htake, hdrop⟩ := take_drop_words_of_dropped_eq_zero hfits
  rw [htake, hdrop, ← hcode]
  exact toList_words_of_dropped_eq_zero hfitsMoved

/-- The lines of a fresh program that fits have moved. -/
theorem lines_move (hfresh : program.IsFresh)
    (hresolve : ∀ line ∈ program.lines, line.fails program.lookup config = false) :
    (assemble (program.move k) (config.move k)).value.lines =
      (assemble program config).value.lines.map (Line.move k) := by
  -- the code ends before either image does, so no address of a slot stands still
  have haddress : ∀ count ≤ codeSize program.lines,
      (config.move k).addressAfter count = config.addressAfter count + k := by
    intro count hcount
    have hlayout := codeSize_le_length_layout program
    have hlayoutMoved : codeSize program.lines ≤ (program.move k).layout.length :=
      codeSize_le_length_layout (program.move k)
    have hcapacity := length_layout_le_of_dropped_eq_zero hfits
    have hcapacityMoved := length_layout_le_of_dropped_eq_zero hfitsMoved
    exact addressAfter_move (by omega) (by omega)
  rw [lines_assemble, lines_assemble]
  exact placeLines_move (lookup_move hmove) hfresh hresolve haddress

end MovedProgram

/-- **Relocation tags tell the truth.** Let a fresh program whose operands all resolve be moved by
`k` words, so that no address of its data overflows, and let it fit before and after. Then
relocatable words of code have moved, all other words are the same bit for bit, every slot, external
reference and exported label has moved, and the diagnostics and the error count are the same. -/
theorem assemble_move (program : FirstPass) (config : Config) (k : Nat)
    (hmove : program.CanMove k) (hfresh : program.IsFresh)
    (hfits : (assemble program config).value.image.dropped = 0)
    (hfitsMoved : (assemble (program.move k) (config.move k)).value.image.dropped = 0)
    (hresolve : ∀ line ∈ program.lines, line.fails program.lookup config = false) :
    let before := assemble program config
    let after := assemble (program.move k) (config.move k)
    after.value.image.size = before.value.image.size ∧
      after.value.image.words.toList =
        (before.value.image.words.toList.take (codeSize program.lines)).map (Word.move k) ++
          before.value.image.words.toList.drop (codeSize program.lines) ∧
      after.value.lines = before.value.lines.map (Line.move k) ∧
      after.value.externalReferences =
        before.value.externalReferences.map (fun reference => (reference.1, reference.2 + k)) ∧
      after.value.entryExports =
        before.value.entryExports.map (fun label => (label.1, label.2 + k)) ∧
      after.diagnostics = before.diagnostics ∧
      after.value.errorCount = before.value.errorCount := by
  intro before after
  have hwords := words_move hmove hfits hfitsMoved hresolve
  have hlines := lines_move hmove hfits hfitsMoved hfresh hresolve
  have hsize : after.value.image.size = before.value.image.size := by
    have hlength := congrArg List.length hwords
    simp only [List.length_append, List.length_map, List.length_take, List.length_drop,
      Array.length_toList] at hlength
    simp only [Image.size, before, after]
    omega
  exact ⟨hsize, hwords, hlines, Assembly.externalReferences_move k hlines,
    exports_move (address?_relocate_move hmove) program.entries,
    diagnostics_move hmove hfits hfitsMoved, errorCount_move hmove hfits hfitsMoved⟩

/-- The sample moved by fifty words uses its external label fifty words further on. -/
theorem assemble_move_sampleProgram :
    sampleProgram.CanMove 50 ∧ sampleProgram.IsFresh ∧
      (assemble sampleProgram {}).value.image.dropped = 0 ∧
      (assemble (sampleProgram.move 50) (Config.move 50 {})).value.image.dropped = 0 ∧
      (∀ line ∈ sampleProgram.lines, line.fails sampleProgram.lookup {} = false) ∧
      (assemble (sampleProgram.move 50) (Config.move 50 {})).value.externalReferences =
        [("EXT", 155), ("EXT", 158)] ∧
      (assemble (sampleProgram.move 50) (Config.move 50 {})).value.entryExports =
        [("LIST", 165), ("MAIN", 150)] := by
  have hmove : sampleProgram.CanMove 50 := by decide
  have hfresh : sampleProgram.IsFresh := by decide
  have hresolve : ∀ line ∈ sampleProgram.lines, line.fails sampleProgram.lookup {} = false := by
    decide
  obtain ⟨-, -, -, hreferences, hexports, -⟩ :=
    assemble_move sampleProgram {} 50 hmove hfresh rfl rfl hresolve
  exact ⟨hmove, hfresh, rfl, rfl, hresolve, hreferences.trans rfl, hexports.trans rfl⟩

end SecondPass
