import SecondPass.Report.Logged
import SecondPass.Symbols.Address

/-!
# Symbol tables

A table lists the labels of a module in the order of their definitions, each name once. A table is
`pending` while the addresses of data labels count from the start of the data segment. `finalize`
moves them past the code and gives a `final` table, which is the only kind that operands are
resolved against, so data addresses move exactly once.
-/

namespace SecondPass

/-- A label and its address. -/
structure Symbol where
  name : String
  address : Address
  deriving DecidableEq, Repr

/-- Where the addresses of data labels in a table count from. -/
inductive Stage where
  /-- From the start of the data segment. -/
  | pending
  /-- From the start of memory. -/
  | final
  deriving DecidableEq, Repr

/-- The labels of a module, in the order of their definitions. -/
structure SymbolTable (stage : Stage) where
  symbols : List Symbol
  names_nodup : (symbols.map Symbol.name).Nodup

/-- A label was defined again; the earlier definition stands. -/
structure DuplicateSymbol where
  name : String
  address : Address
  deriving DecidableEq, Repr

/-- The wording of a second definition. -/
def DuplicateSymbol.message (duplicate : DuplicateSymbol) : String :=
  "The label \"" ++ duplicate.name ++ "\" is already defined."

namespace SymbolTable

variable {stage : Stage}

/-- The table without labels. -/
def empty : SymbolTable stage := ⟨[], List.nodup_nil⟩

/-- The names in a table. -/
def names (table : SymbolTable stage) : List String := table.symbols.map Symbol.name

/-- The number of labels. -/
def size (table : SymbolTable stage) : Nat := table.symbols.length

/-- Whether there are no labels. -/
def isEmpty (table : SymbolTable stage) : Bool := table.symbols.isEmpty

/-- The place of a name in the order of definitions. -/
def slot? (table : SymbolTable stage) (name : String) : Option Nat :=
  table.symbols.findIdx? (·.name == name)

/-- The label with a given name. -/
def get? (table : SymbolTable stage) (name : String) : Option Symbol :=
  match table.slot? name with
  | some slot => table.symbols[slot]?
  | none => none

/-- The address of the label with a given name. -/
def address? (table : SymbolTable stage) (name : String) : Option Address :=
  (table.get? name).map Symbol.address

/-- Defines a label. A name can be defined once only, and the first definition stands. -/
def insert (table : SymbolTable .pending) (name : String) (address : Address) :
    Except DuplicateSymbol (SymbolTable .pending) :=
  if h : name ∈ table.names then .error ⟨name, address⟩
  else
    .ok ⟨table.symbols ++ [⟨name, address⟩], by
      have hn := table.names_nodup
      simp only [names] at h
      rw [List.map_append, List.nodup_append]
      refine ⟨hn, by simp, ?_⟩
      rintro a ha b hb rfl
      simp at hb
      exact h (hb ▸ ha)⟩

/-- Defines labels one after the other, and stops at a second definition of a name. -/
def ofList (symbols : List Symbol) : Except DuplicateSymbol (SymbolTable .pending) :=
  symbols.foldlM (fun table symbol => table.insert symbol.name symbol.address) empty

/-- Moves the addresses of data labels past a code segment of the given length. -/
def relocate (table : SymbolTable .pending) (codeLength : Nat) : SymbolTable .final :=
  ⟨table.symbols.map fun symbol => { symbol with address := symbol.address.relocate codeLength }, by
    simpa [List.map_map, Function.comp_def] using table.names_nodup⟩

/-- The number of data labels. -/
def dataLabels (table : SymbolTable stage) : Nat :=
  table.symbols.countP (·.address.isData)

/-- Makes a table final, now that the length of the code is known. -/
def finalize (table : SymbolTable .pending) (codeLength : Nat) : Logged (SymbolTable .final) := do
  let final := table.relocate codeLength
  note (.finalized codeLength final.dataLabels)
  return final

/-! ## Look-up -/

/-- A name in the table has a place inside it. -/
theorem slot?_lt_size {table : SymbolTable stage} {name : String} {slot : Nat}
    (h : table.slot? name = some slot) : slot < table.size := by
  obtain ⟨hlt, _⟩ := List.findIdx?_eq_some_iff_getElem.1 h
  exact hlt

/-- Look-up by place is look-up by name. -/
theorem get?_eq_find? (table : SymbolTable stage) (name : String) :
    table.get? name = table.symbols.find? (·.name == name) := by
  unfold get? slot?
  induction table.symbols with
  | nil => rfl
  | cons symbol rest ih =>
    by_cases h : symbol.name = name
    · simp [List.findIdx?_cons, h]
    · rw [List.findIdx?_cons, List.find?_cons]
      simp only [beq_eq_false_iff_ne.2 h, Bool.false_eq_true, ↓reduceIte]
      rw [← ih]
      cases rest.findIdx? (·.name == name) <;> simp

/-- Every label keeps its name when the data move, so its new address is the old one, moved. -/
theorem address?_relocate_eq_map (table : SymbolTable .pending) (codeLength : Nat)
    (name : String) :
    (table.relocate codeLength).address? name =
      (table.address? name).map (Address.relocate codeLength) := by
  simp only [address?, get?_eq_find?, relocate, List.find?_map, Option.map_map]
  rfl

@[simp] theorem value_finalize (table : SymbolTable .pending) (codeLength : Nat) :
    (table.finalize codeLength).value = table.relocate codeLength := rfl

end SymbolTable

end SecondPass
