import SecondPass.Source.Line
import SecondPass.Symbols.Table

/-!
# Exported labels

A module exports the labels that its entries name. `checkEntries` reports every entry whose name is
not a label of the module, and `exports` lists the others with their addresses, each name once.
-/

namespace SecondPass

/-- What is wrong with an entry, if anything is. -/
def Entry.problem? (entry : Entry) (symbols : SymbolTable .final) : Option Problem :=
  match symbols.get? entry.name with
  | some symbol => if symbol.address.isExternal then some (.externalEntry entry.name) else none
  | none => some (.noSuchLabel entry.name)

/-- Reports each entry with which something is wrong, and counts them. -/
def reportEntries (symbols : SymbolTable .final) : List Entry → Logged Nat
  | [] => pure 0
  | entry :: rest =>
    match entry.problem? symbols with
    | some problem => do
      report (some entry.line) problem
      let illegal ← reportEntries symbols rest
      return illegal + 1
    | none => reportEntries symbols rest

/-- Checks all entries and counts the illegal ones. -/
def checkEntries (symbols : SymbolTable .final) (entries : List Entry) : Logged Nat := do
  let illegal ← reportEntries symbols entries
  note (.entriesChecked entries.length illegal)
  return illegal

/-- The exported label of a given name with its address, if the module has such a label. -/
def export? (symbols : SymbolTable .final) (name : String) : Option (String × Nat) :=
  match symbols.get? name with
  | some symbol => if symbol.address.isExternal then none else some (name, symbol.address.number)
  | none => none

/-- The exported labels with their addresses, in the order of the first entry for each. -/
def exports (symbols : SymbolTable .final) (entries : List Entry) : List (String × Nat) :=
  (entries.map Entry.name).eraseDups.filterMap (export? symbols)

end SecondPass
