import Mathlib.Data.List.Nodup
import SecondPass.Symbols.Table

/-!
# Tables by their symbols

Names in a table are distinct, so a name leads to a symbol exactly if the table has that symbol
(`get?_eq_some_iff`), wherever it stands. Symbols with distinct names can be defined one after the
other, and the table then lists them in the order of their definitions (`exists_ofList_of_nodup`).
-/

namespace SecondPass

namespace SymbolTable

variable {stage : Stage}

/-! ## Look-up -/

/-- A name leads to a symbol exactly if the symbol is in the table and has the name. -/
theorem get?_eq_some_iff {table : SymbolTable stage} {name : String} {symbol : Symbol} :
    table.get? name = some symbol ↔ symbol ∈ table.symbols ∧ symbol.name = name := by
  rw [get?_eq_find?]
  constructor
  · intro h
    exact ⟨List.mem_of_find?_eq_some h, by simpa using List.find?_some h⟩
  · rintro ⟨hmem, rfl⟩
    -- the search cannot fail, and it cannot stop at another symbol of the same name
    rcases hfind : table.symbols.find? (·.name == symbol.name) with _ | found
    · rw [List.find?_eq_none] at hfind
      exact absurd (beq_self_eq_true symbol.name) (hfind symbol hmem)
    · have hname : found.name = symbol.name := by simpa using List.find?_some hfind
      have hfound := List.mem_of_find?_eq_some hfind
      rw [hfind, List.inj_on_of_nodup_map table.names_nodup hfound hmem hname]

/-- Look-up does not depend on the order of the definitions. -/
theorem address?_eq_of_perm {table other : SymbolTable stage}
    (h : other.symbols.Perm table.symbols) : other.address? = table.address? := by
  funext name
  have hget : other.get? name = table.get? name := by
    apply Option.ext
    intro symbol
    rw [get?_eq_some_iff, get?_eq_some_iff, h.mem_iff]
  rw [address?, address?, hget]

/-! ## Definition -/

theorem exists_insert_of_notMem {table : SymbolTable .pending} {name : String}
    (h : name ∉ table.names) (address : Address) :
    ∃ next, table.insert name address = .ok next ∧
      next.symbols = table.symbols ++ [⟨name, address⟩] := by
  rw [insert, dif_neg h]
  exact ⟨_, rfl, rfl⟩

/-- Symbols whose names are distinct, and not in the table either, can all be defined. -/
theorem exists_foldlM_insert_of_nodup {table : SymbolTable .pending} {symbols : List Symbol}
    (h : ((table.symbols ++ symbols).map Symbol.name).Nodup) :
    ∃ final, symbols.foldlM (fun table symbol => table.insert symbol.name symbol.address) table =
      .ok final ∧ final.symbols = table.symbols ++ symbols := by
  induction symbols generalizing table with
  | nil => exact ⟨table, rfl, (List.append_nil _).symm⟩
  | cons symbol rest ih =>
    have hname : symbol.name ∉ table.names := by
      rw [List.map_append, List.nodup_append] at h
      intro hmem
      exact h.2.2 _ hmem symbol.name (by simp) rfl
    obtain ⟨next, hnext, hsymbols⟩ := exists_insert_of_notMem hname symbol.address
    -- the first symbol moves from the list to the table, so the names together stay the same
    have happend : next.symbols ++ rest = table.symbols ++ symbol :: rest := by
      rw [hsymbols, List.append_assoc]
      rfl
    rw [← happend] at h
    obtain ⟨final, hfinal, hall⟩ := ih h
    refine ⟨final, ?_, hall.trans happend⟩
    rw [List.foldlM_cons, hnext]
    exact hfinal

/-- Symbols with distinct names can be defined in any order. -/
theorem exists_ofList_of_nodup {symbols : List Symbol}
    (h : (symbols.map Symbol.name).Nodup) :
    ∃ table, ofList symbols = .ok table ∧ table.symbols = symbols := by
  have hempty : (((empty : SymbolTable .pending).symbols ++ symbols).map Symbol.name).Nodup := h
  exact exists_foldlM_insert_of_nodup hempty

end SymbolTable

end SecondPass
