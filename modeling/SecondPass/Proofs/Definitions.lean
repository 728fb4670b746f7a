import Mathlib.Data.Finset.Card
import Mathlib.Data.List.Induction
import SecondPass.Proofs.Tables

/-!
# Histories of definitions

A table meets definitions one after the other, and some of them define a name that it has already.
Such a definition is refused and changes nothing. So the table after a history is the list of its
first definitions (`symbols_ofHistory`), and a name leads to the first definition that the history
has of it.

A table can also be kept in two parts: the symbols in a row, and a two-way map between names and
slots of the row. The map can refuse a pair for its name or for its slot, and a slot found in the
map is used without a second look. `SlotTable` is a table in this form, over any two-way map, and
`Represents` is the invariant that ties both parts to a plain table: every definition keeps it,
refused or not, and so does the move of the data past the code.
-/

namespace SecondPass

/-! ## First definitions -/

/-- The first definition of each name, in the order of a history. -/
def firstDefinitions : List Symbol → List Symbol
  | [] => []
  | symbol :: rest => symbol :: (firstDefinitions rest).filter (·.name != symbol.name)

theorem mem_map_name_firstDefinitions {history : List Symbol} {name : String} :
    name ∈ (firstDefinitions history).map Symbol.name ↔ name ∈ history.map Symbol.name := by
  induction history with
  | nil => rfl
  | cons first rest ih =>
    rw [firstDefinitions, List.map_cons, List.map_cons, List.mem_cons, List.mem_cons, ← ih]
    by_cases h : name = first.name
    · simp [h]
    · -- the filter takes away other names only
      simp only [h, false_or, List.mem_map, List.mem_filter, bne_iff_ne]
      constructor
      · rintro ⟨symbol, ⟨hmem, -⟩, hname⟩
        exact ⟨symbol, hmem, hname⟩
      · rintro ⟨symbol, hmem, hname⟩
        exact ⟨symbol, ⟨hmem, hname ▸ h⟩, hname⟩

/-- A further definition counts only if its name is new. -/
theorem firstDefinitions_concat (history : List Symbol) (symbol : Symbol) :
    firstDefinitions (history ++ [symbol]) =
      if symbol.name ∈ history.map Symbol.name then firstDefinitions history
      else firstDefinitions history ++ [symbol] := by
  induction history with
  | nil => rfl
  | cons first rest ih =>
    rw [List.cons_append, firstDefinitions, firstDefinitions, ih]
    by_cases hrest : symbol.name ∈ rest.map Symbol.name
    · rw [if_pos hrest, if_pos (by rw [List.map_cons]; exact List.mem_cons_of_mem _ hrest)]
    · rw [if_neg hrest, List.filter_append]
      by_cases hfirst : symbol.name = first.name
      · rw [if_pos (by simp [hfirst])]
        simp [hfirst]
      · rw [if_neg (by simpa [hfirst] using hrest)]
        simp [hfirst]

/-- The search for a name stops at its first definition. -/
theorem find?_firstDefinitions (history : List Symbol) (name : String) :
    (firstDefinitions history).find? (·.name == name) = history.find? (·.name == name) := by
  induction history with
  | nil => rfl
  | cons first rest ih =>
    rw [firstDefinitions, List.find?_cons, List.find?_cons, List.find?_filter]
    by_cases h : first.name = name
    · simp [h]
    · have hkept : (fun symbol : Symbol =>
            decide ((symbol.name != first.name) = true ∧ (symbol.name == name) = true)) =
          fun symbol => symbol.name == name := by
        funext symbol
        by_cases hname : symbol.name = name
        · simp [hname, Ne.symm h]
        · simp [hname]
      rw [hkept, ih]

/-! ## Tables after a history -/

/-- What becomes of a table when a definition is tried on it. -/
def define {T : Type} (insert : T → String → Address → Except DuplicateSymbol T) (table : T)
    (symbol : Symbol) : T :=
  match insert table symbol.name symbol.address with
  | .ok next => next
  | .error _ => table

namespace SymbolTable

/-- The table after definitions that were tried one after the other. -/
def ofHistory (history : List Symbol) : SymbolTable .pending :=
  history.foldl (define insert) empty

theorem ofHistory_concat (history : List Symbol) (symbol : Symbol) :
    ofHistory (history ++ [symbol]) = define insert (ofHistory history) symbol := by
  rw [ofHistory, List.foldl_append]
  rfl

theorem insert_of_mem {table : SymbolTable .pending} {name : String} (h : name ∈ table.names)
    (address : Address) : table.insert name address = .error ⟨name, address⟩ := by
  rw [insert, dif_pos h]

theorem symbols_define (table : SymbolTable .pending) (symbol : Symbol) :
    (define insert table symbol).symbols =
      if symbol.name ∈ table.names then table.symbols else table.symbols ++ [symbol] := by
  by_cases h : symbol.name ∈ table.names
  · rw [define, insert_of_mem h, if_pos h]
  · obtain ⟨next, hnext, hsymbols⟩ := exists_insert_of_notMem h symbol.address
    rw [define, hnext, if_neg h]
    exact hsymbols

/-- The table after a history lists its first definitions. -/
theorem symbols_ofHistory (history : List Symbol) :
    (ofHistory history).symbols = firstDefinitions history := by
  induction history using List.reverseRecOn with
  | nil => rfl
  | append_singleton history symbol ih =>
    rw [ofHistory_concat, symbols_define, firstDefinitions_concat, names, ih]
    simp only [mem_map_name_firstDefinitions]

theorem mem_names_ofHistory {history : List Symbol} {name : String} :
    name ∈ (ofHistory history).names ↔ name ∈ history.map Symbol.name := by
  rw [names, symbols_ofHistory, mem_map_name_firstDefinitions]

theorem size_ofHistory (history : List Symbol) :
    (ofHistory history).size = (history.map Symbol.name).toFinset.card := by
  have hnames : (ofHistory history).names.toFinset = (history.map Symbol.name).toFinset := by
    ext name
    rw [List.mem_toFinset, List.mem_toFinset, mem_names_ofHistory]
  rw [← hnames, names, List.toFinset_card_of_nodup (ofHistory history).names_nodup,
    List.length_map, size]

theorem get?_ofHistory (history : List Symbol) (name : String) :
    (ofHistory history).get? name = history.find? (·.name == name) := by
  rw [get?_eq_find?, symbols_ofHistory, find?_firstDefinitions]

theorem slot?_relocate (table : SymbolTable .pending) (codeLength : Nat) (name : String) :
    (table.relocate codeLength).slot? name = table.slot? name := by
  rw [slot?, slot?, relocate, List.findIdx?_map]
  rfl

theorem names_relocate (table : SymbolTable .pending) (codeLength : Nat) :
    (table.relocate codeLength).names = table.names := by
  rw [names, names, relocate, List.map_map]
  rfl

theorem slot?_eq_none_iff {stage : Stage} {table : SymbolTable stage} {name : String} :
    table.slot? name = none ↔ name ∉ table.names := by
  rw [slot?, List.findIdx?_eq_none_iff, names, List.mem_map, not_exists]
  simp

/-- A new name gets the slot behind all others, and the others keep theirs. -/
theorem slot?_of_symbols_eq {table next : SymbolTable .pending} {symbol : Symbol}
    (h : next.symbols = table.symbols ++ [symbol]) (hname : symbol.name ∉ table.names)
    (name : String) :
    next.slot? name = if name = symbol.name then some table.size else table.slot? name := by
  rw [slot?, h, List.findIdx?_append]
  by_cases hnew : name = symbol.name
  · have hnone : table.slot? name = none := slot?_eq_none_iff.2 (hnew ▸ hname)
    rw [slot?] at hnone
    rw [hnone, if_pos hnew, List.findIdx?_singleton]
    simp [hnew, size]
  · rw [if_neg hnew, List.findIdx?_singleton]
    simp [Ne.symm hnew, slot?]

end SymbolTable

/-! ## Tables in two parts -/

/-- A two-way map between names and slots, given by its operations and their laws. -/
structure SlotMap where
  Map : Type
  empty : Map
  /-- The slot of a name. -/
  slot? : Map → String → Option Nat
  /-- The name in a slot. -/
  name? : Map → Nat → Option String
  /-- Adds a pair if neither its name nor its slot is taken. -/
  add? : Map → String → Nat → Option Map
  slot?_empty : ∀ name, slot? empty name = none
  name?_empty : ∀ slot, name? empty slot = none
  add?_eq_none_iff : ∀ map name slot,
    add? map name slot = none ↔ (slot? map name).isSome = true ∨ (name? map slot).isSome = true
  slot?_add : ∀ map next name slot, add? map name slot = some next → ∀ other,
    slot? next other = if other = name then some slot else slot? map other
  name?_add : ∀ map next name slot, add? map name slot = some next → ∀ other,
    name? next other = if other = slot then some name else name? map other

/-- A table in two parts: the symbols in a row, and the slots of their names. -/
structure SlotTable (map : SlotMap) where
  slots : map.Map
  symbols : Array Symbol

namespace SlotTable

variable {map : SlotMap} {stage : Stage}

/-- The table without labels. -/
def empty : SlotTable map := ⟨map.empty, #[]⟩

/-- Defines a label in the slot behind all others, if the map takes the pair. -/
def insert (table : SlotTable map) (name : String) (address : Address) :
    Except DuplicateSymbol (SlotTable map) :=
  match map.add? table.slots name table.symbols.size with
  | some slots => .ok ⟨slots, table.symbols.push ⟨name, address⟩⟩
  | none => .error ⟨name, address⟩

/-- The label in the slot of a name. -/
def get? (table : SlotTable map) (name : String) : Option Symbol :=
  match map.slot? table.slots name with
  | some slot => table.symbols[slot]?
  | none => none

/-- Moves the addresses of data labels, and leaves all slots as they are. -/
def relocate (table : SlotTable map) (codeLength : Nat) : SlotTable map where
  slots := table.slots
  symbols := table.symbols.map fun symbol =>
    { symbol with address := symbol.address.relocate codeLength }

/-- The table after definitions that were tried one after the other. -/
def ofHistory (map : SlotMap) (history : List Symbol) : SlotTable map :=
  history.foldl (define insert) empty

theorem ofHistory_concat (map : SlotMap) (history : List Symbol) (symbol : Symbol) :
    ofHistory map (history ++ [symbol]) = define insert (ofHistory map history) symbol := by
  rw [ofHistory, List.foldl_append]
  rfl

/-- A table in two parts represents a plain one when its row lists the same symbols and its map
knows the slot of each name and the name of each slot. -/
structure Represents (slotted : SlotTable map) (table : SymbolTable stage) : Prop where
  symbols_eq : slotted.symbols.toList = table.symbols
  slot?_eq : ∀ name, map.slot? slotted.slots name = table.slot? name
  name?_eq : ∀ slot, map.name? slotted.slots slot = table.symbols[slot]?.map Symbol.name

namespace Represents

theorem size_eq {slotted : SlotTable map} {table : SymbolTable stage}
    (h : slotted.Represents table) : slotted.symbols.size = table.size := by
  rw [← Array.length_toList, h.symbols_eq, SymbolTable.size]

theorem get?_eq {slotted : SlotTable map} {table : SymbolTable stage}
    (h : slotted.Represents table) (name : String) : slotted.get? name = table.get? name := by
  rw [get?, SymbolTable.get?, h.slot?_eq, ← h.symbols_eq]
  cases table.slot? name with
  | none => rfl
  | some slot => exact Array.getElem?_toList.symm

/-- The slot of a name lies in the row. -/
theorem slot_lt {slotted : SlotTable map} {table : SymbolTable stage}
    (h : slotted.Represents table) {name : String} {slot : Nat}
    (hslot : map.slot? slotted.slots name = some slot) : slot < slotted.symbols.size := by
  rw [h.slot?_eq] at hslot
  rw [h.size_eq]
  exact SymbolTable.slot?_lt_size hslot

theorem empty : (empty : SlotTable map).Represents (.empty : SymbolTable stage) where
  symbols_eq := rfl
  slot?_eq := map.slot?_empty
  name?_eq := map.name?_empty

variable {slotted : SlotTable map} {table : SymbolTable .pending}

/-- The slot behind all others is never taken, so the map refuses names only. -/
theorem add?_eq_none_iff (h : slotted.Represents table) (name : String) :
    map.add? slotted.slots name slotted.symbols.size = none ↔ name ∈ table.names := by
  have hfree : map.name? slotted.slots slotted.symbols.size = none := by
    rw [h.name?_eq, h.size_eq, SymbolTable.size, List.getElem?_length]
    rfl
  rw [map.add?_eq_none_iff, hfree, h.slot?_eq, Option.isSome_iff_ne_none, ne_eq,
    SymbolTable.slot?_eq_none_iff, not_not]
  simp

/-- A name that is defined already is refused. -/
theorem insert_of_mem (h : slotted.Represents table) {name : String} (hname : name ∈ table.names)
    (address : Address) : slotted.insert name address = .error ⟨name, address⟩ := by
  rw [insert, (h.add?_eq_none_iff name).2 hname]

/-- A new name takes both parts one step further. -/
theorem exists_insert_of_notMem (h : slotted.Represents table) {name : String}
    (hname : name ∉ table.names) (address : Address) :
    ∃ next nextTable, slotted.insert name address = .ok next ∧
      table.insert name address = .ok nextTable ∧ next.Represents nextTable := by
  obtain ⟨nextTable, hnextTable, hsymbols⟩ :=
    SymbolTable.exists_insert_of_notMem hname address
  obtain ⟨slots, hslots⟩ := Option.ne_none_iff_exists'.1
    (fun hnone => hname ((h.add?_eq_none_iff name).1 hnone))
  refine ⟨⟨slots, slotted.symbols.push ⟨name, address⟩⟩, nextTable, ?_, hnextTable, ?_⟩
  · rw [insert, hslots]
  · refine ⟨?_, ?_, ?_⟩
    · rw [Array.toList_push, h.symbols_eq, hsymbols]
    · intro other
      rw [map.slot?_add _ _ _ _ hslots, SymbolTable.slot?_of_symbols_eq hsymbols hname, h.size_eq,
        h.slot?_eq]
    · intro slot
      rw [map.name?_add _ _ _ _ hslots, h.name?_eq, h.size_eq, hsymbols, SymbolTable.size]
      rcases Nat.lt_trichotomy slot table.symbols.length with hlt | rfl | hgt
      · rw [if_neg (by omega), List.getElem?_append_left hlt]
      · simp
      · rw [if_neg (by omega), List.getElem?_eq_none (by omega),
          List.getElem?_eq_none (by rw [List.length_append]; exact hgt)]

/-- A definition keeps the two parts in step, whether it is refused or not. -/
theorem define (h : slotted.Represents table) (symbol : Symbol) :
    (define insert slotted symbol).Represents (define SymbolTable.insert table symbol) := by
  by_cases hname : symbol.name ∈ table.names
  · rw [SecondPass.define, SecondPass.define, h.insert_of_mem hname,
      SymbolTable.insert_of_mem hname]
    exact h
  · obtain ⟨next, nextTable, hnext, hnextTable, hrepresents⟩ :=
      h.exists_insert_of_notMem hname symbol.address
    rw [SecondPass.define, SecondPass.define, hnext, hnextTable]
    exact hrepresents

theorem relocate (h : slotted.Represents table) (codeLength : Nat) :
    (slotted.relocate codeLength).Represents (table.relocate codeLength) where
  symbols_eq := by
    rw [SlotTable.relocate, Array.toList_map, h.symbols_eq]
    rfl
  slot?_eq := by
    intro name
    rw [SymbolTable.slot?_relocate, ← h.slot?_eq]
    rfl
  name?_eq := by
    intro slot
    have hslot := h.name?_eq slot
    rw [SymbolTable.relocate, List.getElem?_map, Option.map_map]
    exact hslot

/-- Both parts stay in step with the plain table through a whole history. -/
theorem ofHistory (map : SlotMap) (history : List Symbol) :
    (ofHistory map history).Represents (SymbolTable.ofHistory history) := by
  induction history using List.reverseRecOn with
  | nil => exact Represents.empty
  | append_singleton history symbol ih =>
    rw [SymbolTable.ofHistory_concat, SlotTable.ofHistory_concat]
    exact ih.define symbol

end Represents

end SlotTable

/-- A two-way map as a list of pairs. -/
def SlotMap.pairs : SlotMap where
  Map := List (String × Nat)
  empty := []
  slot? map name := (map.find? (·.1 == name)).map Prod.snd
  name? map slot := (map.find? (·.2 == slot)).map Prod.fst
  add? map name slot :=
    if ∃ pair ∈ map, pair.1 = name ∨ pair.2 = slot then none else some ((name, slot) :: map)
  slot?_empty _ := rfl
  name?_empty _ := rfl
  add?_eq_none_iff map name slot := by
    simp only [Option.isSome_map, List.find?_isSome, beq_iff_eq, ← exists_or, ← and_or_left]
    exact ite_eq_left_iff.trans (by simp only [reduceCtorEq, imp_false, not_not])
  slot?_add map next name slot h other := by
    obtain ⟨-, rfl⟩ := by simpa using h
    by_cases hother : other = name
    · simp [hother]
    · simp [hother, Ne.symm hother]
  name?_add map next name slot h other := by
    obtain ⟨-, rfl⟩ := by simpa using h
    by_cases hother : other = slot
    · simp [hother]
    · simp [hother, Ne.symm hother]

/-! ## The first definition stands -/

/-- Tables after a history refuse exactly the names of the history. A refusal carries the definition
that was refused and leaves the table as it was. -/
structure RefusesRepeats {T : Type} (insert : T → String → Address → Except DuplicateSymbol T)
    (ofHistory : List Symbol → T) (history : List Symbol) : Prop where
  refused : ∀ name address, name ∈ history.map Symbol.name →
    insert (ofHistory history) name address = .error ⟨name, address⟩ ∧
      ofHistory (history ++ [⟨name, address⟩]) = ofHistory history
  accepted : ∀ name address, name ∉ history.map Symbol.name →
    insert (ofHistory history) name address = .ok (ofHistory (history ++ [⟨name, address⟩]))

theorem refusesRepeats_of_insert {T : Type}
    {insert : T → String → Address → Except DuplicateSymbol T} {ofHistory : List Symbol → T}
    {history : List Symbol}
    (hconcat : ∀ symbol, ofHistory (history ++ [symbol]) = define insert (ofHistory history) symbol)
    (hrefused : ∀ name address, name ∈ history.map Symbol.name →
      insert (ofHistory history) name address = .error ⟨name, address⟩)
    (haccepted : ∀ name address, name ∉ history.map Symbol.name →
      ∃ next, insert (ofHistory history) name address = .ok next) :
    RefusesRepeats insert ofHistory history := by
  refine ⟨?_, ?_⟩
  · intro name address hname
    refine ⟨hrefused name address hname, ?_⟩
    rw [hconcat, define, hrefused name address hname]
  · intro name address hname
    obtain ⟨next, hnext⟩ := haccepted name address hname
    rw [hconcat, define, hnext]

theorem SymbolTable.refusesRepeats (history : List Symbol) :
    RefusesRepeats insert ofHistory history := by
  apply refusesRepeats_of_insert (ofHistory_concat history)
  · intro name address hname
    exact insert_of_mem (mem_names_ofHistory.2 hname) address
  · intro name address hname
    rw [← mem_names_ofHistory] at hname
    obtain ⟨next, hnext, -⟩ := exists_insert_of_notMem hname address
    exact ⟨next, hnext⟩

theorem SlotTable.refusesRepeats (map : SlotMap) (history : List Symbol) :
    RefusesRepeats insert (ofHistory map) history := by
  have hrepresents := Represents.ofHistory map history
  apply refusesRepeats_of_insert (ofHistory_concat map history)
  · intro name address hname
    exact hrepresents.insert_of_mem (SymbolTable.mem_names_ofHistory.2 hname) address
  · intro name address hname
    rw [← SymbolTable.mem_names_ofHistory] at hname
    obtain ⟨next, -, hnext, -⟩ := hrepresents.exists_insert_of_notMem hname address
    exact ⟨next, hnext⟩

/-- A table in two parts mirrors a plain one: it lists the same symbols, finds the same slots, all
of them in its row, and so the same symbols by their names. -/
structure SlotTable.Mirrors {map : SlotMap} {stage : Stage} (slotted : SlotTable map)
    (table : SymbolTable stage) : Prop where
  symbols_eq : slotted.symbols.toList = table.symbols
  slot?_eq : ∀ name, map.slot? slotted.slots name = table.slot? name
  slot_lt : ∀ name slot, map.slot? slotted.slots name = some slot → slot < slotted.symbols.size
  get?_eq : ∀ name, slotted.get? name = table.get? name

theorem SlotTable.Represents.mirrors {map : SlotMap} {stage : Stage} {slotted : SlotTable map}
    {table : SymbolTable stage} (h : slotted.Represents table) : slotted.Mirrors table :=
  ⟨h.symbols_eq, h.slot?_eq, fun _ _ hslot => h.slot_lt hslot, h.get?_eq⟩

/-- **The first definition stands.** Try any definitions on a new table, one after the other. A
definition is refused exactly if its name was defined before; the refusal carries it, and the table
stays as it was. The table lists the first definition of each name in their order, as many as there
are distinct names, and a name leads to the first definition of it. Making the table final keeps the
names and their order, and moves the addresses of data and no others: by the sum of 64 bits, which
is the plain sum wherever that one has 64 bits. A table in two parts gives the same answers all
along, and no slot that it looks up lies outside its row. -/
theorem first_definition_stands (map : SlotMap) (history : List Symbol) (codeLength : Nat) :
    let table := SymbolTable.ofHistory history
    let slotted := SlotTable.ofHistory map history
    let final := (table.finalize codeLength).value
    RefusesRepeats SymbolTable.insert SymbolTable.ofHistory history ∧
      RefusesRepeats SlotTable.insert (SlotTable.ofHistory map) history ∧
      table.symbols = firstDefinitions history ∧
      table.size = (history.map Symbol.name).toFinset.card ∧
      (∀ name, table.get? name = history.find? (·.name == name)) ∧
      slotted.Mirrors table ∧
      final.names = table.names ∧
      final.size = table.size ∧
      (∀ name, final.address? name =
        match table.address? name with
        | some (.data n) => some (.data ((n + codeLength) % UInt64.size))
        | address => address) ∧
      (∀ name n, table.address? name = some (.data n) → n + codeLength < UInt64.size →
        final.address? name = some (.data (n + codeLength))) ∧
      (slotted.relocate codeLength).Mirrors final := by
  intro table slotted final
  have hrepresents := SlotTable.Represents.ofHistory map history
  have hfinal : final = table.relocate codeLength := SymbolTable.value_finalize table codeLength
  refine ⟨SymbolTable.refusesRepeats history, SlotTable.refusesRepeats map history,
    SymbolTable.symbols_ofHistory history, SymbolTable.size_ofHistory history,
    SymbolTable.get?_ofHistory history, hrepresents.mirrors, ?_, ?_, ?_, ?_, ?_⟩
  · rw [hfinal, SymbolTable.names_relocate]
  · rw [hfinal, SymbolTable.size, SymbolTable.relocate, List.length_map, SymbolTable.size]
  · intro name
    rw [hfinal, SymbolTable.address?_relocate_eq_map]
    cases table.address? name with
    | none => rfl
    | some address => cases address <;> rfl
  · intro name n hname hsum
    rw [hfinal, SymbolTable.address?_relocate_eq_map, hname, Option.map_some,
      Address.relocate_data_of_lt hsum]
  · rw [hfinal]
    exact (hrepresents.relocate codeLength).mirrors

/-- Definitions in which two names come up again. -/
def repeatedHistory : List Symbol :=
  [⟨"MAIN", .code 100⟩, ⟨"LIST", .data 1⟩, ⟨"MAIN", .data 7⟩, ⟨"EXT", .external 17⟩,
    ⟨"LIST", .external 0⟩]

/-- Three of five definitions stand. A sixth is refused for its name, and the data label moves while
the others stay. -/
theorem first_definition_stands_repeatedHistory :
    let table := SymbolTable.ofHistory repeatedHistory
    let slotted := SlotTable.ofHistory SlotMap.pairs repeatedHistory
    table.symbols = [⟨"MAIN", .code 100⟩, ⟨"LIST", .data 1⟩, ⟨"EXT", .external 17⟩] ∧
      slotted.insert "EXT" (.code 120) = .error ⟨"EXT", .code 120⟩ ∧
      slotted.get? "MAIN" = some ⟨"MAIN", .code 100⟩ ∧
      slotted.get? "NONE" = none ∧
      (table.finalize 50).value.address? "LIST" = some (.data 51) ∧
      (table.finalize 50).value.address? "EXT" = some (.external 17) := by
  obtain ⟨-, hslotted, hsymbols, -, hget, hmirrors, -, -, hfinal, hexact, -⟩ :=
    first_definition_stands SlotMap.pairs repeatedHistory 50
  refine ⟨hsymbols, (hslotted.refused "EXT" (.code 120) (by decide)).1, ?_, ?_, ?_, ?_⟩
  · rw [hmirrors.get?_eq, hget]
    decide
  · rw [hmirrors.get?_eq, hget]
    decide
  · apply hexact "LIST" 1
    · rw [SymbolTable.address?, hget]
      decide
    · decide
  · rw [hfinal, SymbolTable.address?, hget]
    decide

end SecondPass
