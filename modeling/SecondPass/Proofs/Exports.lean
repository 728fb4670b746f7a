import Mathlib.Data.List.Induction
import SecondPass.Proofs.References

/-!
# Exports and entries

Entries are looked at twice: `checkEntries` counts those that name no label of the module, and
`exports` lists the labels that the others name, each once. Both go by where the name of an entry
lives, so an entry is legal exactly if its name is listed (`isSome_problem?_eq_false_iff`). A further
entry puts its label behind the others unless the label is listed already (`exports_concat`), and
the order of the list follows from that.

A label that an operand resolved to another module is not exported: the run resolves operands
against the same table, so a name would have to live in two places.
-/

namespace SecondPass

/-! ## One name -/

/-- A name lives in the module and has a number there. -/
def SymbolTable.LivesAt (symbols : SymbolTable .final) (name : String) (number : Nat) : Prop :=
  ∃ address, symbols.address? name = some address ∧ address.isExternal = false ∧
    address.number = number

section Table

variable {symbols : SymbolTable .final} {entries : List Entry} {name : String} {number : Nat}

/-- A name is exported under its number if it lives in the module. -/
theorem export?_eq_some_iff {label : String × Nat} :
    export? symbols name = some label ↔ label.1 = name ∧ symbols.LivesAt name label.2 := by
  obtain ⟨other, number⟩ := label
  rw [export?_eq, SymbolTable.LivesAt]
  constructor
  · intro h
    split at h
    · rename_i address haddress
      split at h
      · cases h
      · rename_i hexternal
        obtain ⟨rfl, rfl⟩ := Prod.mk.inj (Option.some.inj h)
        exact ⟨rfl, address, haddress, by simpa using hexternal, rfl⟩
    · cases h
  · rintro ⟨rfl, address, haddress, hexternal, rfl⟩
    rw [haddress]
    simp [hexternal]

/-- Nothing is wrong with an entry exactly if its name lives in the module. -/
theorem Entry.isSome_problem?_eq_false_iff {entry : Entry} :
    (entry.problem? symbols).isSome = false ↔ ∃ number, symbols.LivesAt entry.name number := by
  rw [problem?_eq]
  simp only [SymbolTable.LivesAt]
  cases symbols.address? entry.name with
  | none => simp
  | some address => cases hexternal : address.isExternal <;> simp [hexternal]

/-! ## The list of exports -/

/-- The exports are the names of entries that live in the module, with their numbers. -/
theorem mem_exports_iff :
    (name, number) ∈ exports symbols entries ↔
      name ∈ entries.map Entry.name ∧ symbols.LivesAt name number := by
  rw [exports, List.mem_filterMap]
  constructor
  · rintro ⟨other, hother, hexport⟩
    obtain ⟨rfl, hlives⟩ := export?_eq_some_iff.1 hexport
    exact ⟨List.mem_eraseDups.1 hother, hlives⟩
  · rintro ⟨hname, hlives⟩
    exact ⟨name, List.mem_eraseDups.2 hname, export?_eq_some_iff.2 ⟨rfl, hlives⟩⟩

theorem mem_map_fst_exports_iff :
    name ∈ (exports symbols entries).map Prod.fst ↔
      name ∈ entries.map Entry.name ∧ ∃ number, symbols.LivesAt name number := by
  rw [List.mem_map]
  constructor
  · rintro ⟨⟨other, number⟩, hmem, rfl⟩
    obtain ⟨hname, hlives⟩ := mem_exports_iff.1 hmem
    exact ⟨hname, number, hlives⟩
  · rintro ⟨hname, number, hlives⟩
    exact ⟨(name, number), mem_exports_iff.2 ⟨hname, hlives⟩, rfl⟩

/-- A further name counts only if it is new. -/
theorem eraseDups_concat (names : List String) (name : String) :
    (names ++ [name]).eraseDups =
      if name ∈ names then names.eraseDups else names.eraseDups ++ [name] := by
  rw [List.eraseDups_append]
  by_cases h : name ∈ names
  · simp [List.removeAll, h]
  · simp [List.removeAll, h, List.eraseDups_cons]

/-- A further entry puts its label behind the others, unless the label is there already or does not
live in the module. -/
theorem exports_concat (symbols : SymbolTable .final) (entries : List Entry) (entry : Entry) :
    exports symbols (entries ++ [entry]) =
      if entry.name ∈ (exports symbols entries).map Prod.fst then exports symbols entries
      else exports symbols entries ++ (export? symbols entry.name).toList := by
  rw [exports, List.map_append, List.map_singleton, eraseDups_concat]
  by_cases hname : entry.name ∈ entries.map Entry.name
  · rw [if_pos hname, ← exports]
    split
    · rfl
    · -- the name is neither new nor listed, so it does not live in the module
      rename_i hlisted
      have hnone : export? symbols entry.name = none := by
        rw [Option.eq_none_iff_forall_ne_some]
        intro label hlabel
        exact hlisted (mem_map_fst_exports_iff.2
          ⟨hname, label.2, (export?_eq_some_iff.1 hlabel).2⟩)
      rw [hnone, Option.toList_none, List.append_nil]
  · have hnew : entry.name ∉ (exports symbols entries).map Prod.fst :=
      fun hlisted => hname (mem_map_fst_exports_iff.1 hlisted).1
    rw [if_neg hname, if_neg hnew, List.filterMap_append, ← exports, List.filterMap_cons,
      List.filterMap_nil]
    cases export? symbols entry.name <;> rfl

/-- Exports come in the order of the first entry for each. -/
theorem exports_pairwise_idxOf_lt (symbols : SymbolTable .final) (entries : List Entry) :
    ((exports symbols entries).map Prod.fst).Pairwise fun first second =>
      (entries.map Entry.name).idxOf first < (entries.map Entry.name).idxOf second := by
  induction entries using List.reverseRecOn with
  | nil => exact List.Pairwise.nil
  | append_singleton entries entry ih =>
    -- listed names have their first entry among the earlier ones
    have hidx : ∀ name ∈ (exports symbols entries).map Prod.fst,
        ((entries ++ [entry]).map Entry.name).idxOf name =
          (entries.map Entry.name).idxOf name := by
      intro name hlisted
      rw [List.map_append, List.idxOf_append, if_pos (mem_map_fst_exports_iff.1 hlisted).1]
    have hkept : ((exports symbols entries).map Prod.fst).Pairwise fun first second =>
        ((entries ++ [entry]).map Entry.name).idxOf first <
          ((entries ++ [entry]).map Entry.name).idxOf second := by
      refine ih.imp_of_mem ?_
      intro first second hfirst hsecond hless
      rwa [hidx first hfirst, hidx second hsecond]
    rw [exports_concat]
    split
    · exact hkept
    · rename_i hnew
      cases hexport : export? symbols entry.name with
      | none => simpa using hkept
      | some label =>
        obtain ⟨hname, hlives⟩ := export?_eq_some_iff.1 hexport
        have hfresh : entry.name ∉ entries.map Entry.name :=
          fun hmem => hnew (mem_map_fst_exports_iff.2 ⟨hmem, label.2, hlives⟩)
        have hmap : (exports symbols entries ++ [label]).map Prod.fst =
            (exports symbols entries).map Prod.fst ++ [entry.name] := by
          rw [List.map_append, List.map_singleton, hname]
        rw [Option.toList_some, hmap, List.pairwise_append]
        refine ⟨hkept, List.pairwise_singleton _ _, ?_⟩
        intro first hfirst second hsecond
        obtain rfl := List.mem_singleton.1 hsecond
        have hlt := List.idxOf_lt_length_of_mem (mem_map_fst_exports_iff.1 hfirst).1
        rw [hidx first hfirst, List.map_append, List.idxOf_append, if_neg hfresh]
        omega

/-- Every entry is either illegal or exported. -/
theorem value_checkEntries_add_countP (symbols : SymbolTable .final) (entries : List Entry) :
    (checkEntries symbols entries).value +
        entries.countP (fun entry => entry.name ∈ (exports symbols entries).map Prod.fst) =
      entries.length := by
  have hcount : entries.countP (fun entry => entry.name ∈ (exports symbols entries).map Prod.fst) =
      entries.countP fun entry => ¬ (entry.problem? symbols).isSome = true := by
    apply List.countP_congr
    intro entry hmem
    simp only [decide_eq_true_eq, Bool.not_eq_true, Entry.isSome_problem?_eq_false_iff,
      mem_map_fst_exports_iff]
    exact and_iff_right (List.mem_map_of_mem hmem)
  rw [value_checkEntries, hcount, ← List.length_eq_countP_add_countP]

end Table

/-! ## Exports and external references -/

/-- The labels in the operands of a program came without an address. -/
def FirstPass.IsUnresolved (program : FirstPass) : Prop :=
  ∀ line ∈ program.lines, ∀ slot ∈ line.slots, slot.operand.label?.bind LabelRef.resolved = none

instance (program : FirstPass) : Decidable program.IsUnresolved :=
  inferInstanceAs (Decidable (∀ line ∈ program.lines, ∀ slot ∈ line.slots, _))

theorem Slot.exists_label_of_externalReference? {slot : Slot} {name : String} {address : Nat}
    (h : slot.externalReference? = some (name, address)) :
    ∃ label, slot.operand.label? = some label ∧ label.isExternal = true ∧ label.name = name := by
  unfold externalReference? at h
  split at h
  · rename_i label found hlabel hfound
    obtain ⟨hexternal, hpair⟩ := Option.ite_none_right_eq_some.1 h
    exact ⟨label, hlabel, hexternal, (Prod.mk.inj (Option.some.inj hpair)).1⟩
  · cases h

/-- An unresolved label of a line is external once the line was encoded only if its name lives in
another module. -/
theorem Line.isExternal_lookup_of_place {line : Line}
    (hunresolved : ∀ slot ∈ line.slots, slot.operand.label?.bind LabelRef.resolved = none)
    {lookup : String → Option Address} {config : Config} {address : Nat → Nat} {slot : Slot}
    (hslot : slot ∈ (line.place lookup config address).slots) {label : LabelRef}
    (hlabel : slot.operand.label? = some label) (hexternal : label.isExternal = true) :
    (lookup label.name).any Address.isExternal = true := by
  obtain ⟨position, rfl⟩ := mem_slots_iff.1 hslot
  have hbefore := hunresolved (line.slot position) (mem_slots_iff.2 ⟨position, rfl⟩)
  by_cases hline : line.isEncodable = true
  · rw [operand_place hline, Operand.label?_settle, Option.map_eq_some_iff] at hlabel
    obtain ⟨origin, horigin, rfl⟩ := hlabel
    have hresolved : origin.resolved = none := by simpa [horigin] using hbefore
    rwa [LabelRef.isExternal_settle hresolved] at hexternal
  · -- a line that is passed over keeps its labels, and these are unresolved
    rw [place, if_neg hline] at hlabel
    have hresolved : label.resolved = none := by simpa [hlabel] using hbefore
    simp [LabelRef.isExternal, hresolved] at hexternal

/-- External references of a program without resolved labels are to names of other modules. -/
theorem isExternal_lookup_of_mem_externalReferences {program : FirstPass}
    (hunresolved : program.IsUnresolved) {config : Config} {name : String} {address : Nat}
    (h : (name, address) ∈ (assemble program config).value.externalReferences) :
    (program.lookup name).any Address.isExternal = true := by
  rw [Assembly.externalReferences, List.mem_filterMap] at h
  obtain ⟨slot, hslot, hreference⟩ := h
  obtain ⟨placed, hplaced, hslot⟩ := List.mem_flatMap.1 hslot
  obtain ⟨i, hi⟩ := List.mem_iff_getElem?.1 hplaced
  rw [lines_assemble, getElem?_placeLines, Option.map_eq_some_iff] at hi
  obtain ⟨line, hline, rfl⟩ := hi
  obtain ⟨label, hlabel, hexternal, rfl⟩ := Slot.exists_label_of_externalReference? hreference
  exact Line.isExternal_lookup_of_place (hunresolved line (List.mem_of_getElem? hline)) hslot hlabel
    hexternal

/-! ## Agreement -/

/-- The exports of an assembly agree with its entries. -/
structure Assembly.ExportsAgree (assembly : Assembly) : Prop where
  /-- No name is exported twice. -/
  names_nodup : (assembly.entryExports.map Prod.fst).Nodup
  /-- The exports are the names of entries that live in the module, with their numbers there. -/
  mem_iff : ∀ name number, (name, number) ∈ assembly.entryExports ↔
    name ∈ assembly.entries.map Entry.name ∧ ∃ address,
      assembly.symbols.address? name = some address ∧ address.isExternal = false ∧
        address.number = number
  /-- They come in the order of the first entry for each. -/
  ordered : (assembly.entryExports.map Prod.fst).Pairwise fun first second =>
    (assembly.entries.map Entry.name).idxOf first < (assembly.entries.map Entry.name).idxOf second
  /-- An entry is illegal or its name is exported, and never both. -/
  count_eq : (checkEntries assembly.symbols assembly.entries).value +
      assembly.entries.countP (fun entry => entry.name ∈ assembly.entryExports.map Prod.fst) =
    assembly.entries.length

theorem Assembly.exportsAgree (assembly : Assembly) : assembly.ExportsAgree where
  names_nodup := by
    refine (exports_pairwise_idxOf_lt assembly.symbols assembly.entries).imp ?_
    rintro first _ hless rfl
    exact absurd hless (Nat.lt_irrefl _)
  mem_iff := fun _ _ => mem_exports_iff
  ordered := exports_pairwise_idxOf_lt assembly.symbols assembly.entries
  count_eq := value_checkEntries_add_countP assembly.symbols assembly.entries

/-- **Exports agree with entries.** An assembled program has the entries that it came with. Its
exports have no repeated name; they are the names of entries that live in the module according to
the final table, with their numbers there, in the order of the first entry for each; and the illegal
entries and the entries with an exported name add up to all entries. If the labels in its operands
came without an address, no exported name is also the name of an external reference. -/
theorem entryExports_agree (program : FirstPass) (config : Config) :
    let assembly := (assemble program config).value
    assembly.entries = program.entries ∧ assembly.ExportsAgree ∧
      (program.IsUnresolved → ∀ name ∈ assembly.entryExports.map Prod.fst,
        name ∉ assembly.externalReferences.map Prod.fst) := by
  intro assembly
  refine ⟨rfl, assembly.exportsAgree, ?_⟩
  intro hunresolved name hexported hreferenced
  obtain ⟨-, number, address, haddress, hexternal, -⟩ := mem_map_fst_exports_iff.1 hexported
  obtain ⟨⟨other, target⟩, hreference, rfl⟩ := List.mem_map.1 hreferenced
  -- both views read the address of the name in the final table
  have hlookup := isExternal_lookup_of_mem_externalReferences hunresolved hreference
  rw [symbols_assemble, address?_relocate] at haddress
  simp [haddress, hexternal] at hlookup

/-- The sample with entries for names that are repeated, missing and external. -/
def entangledProgram : FirstPass :=
  { sampleProgram with
    entries := [⟨1, "MAIN"⟩, ⟨2, "EXT"⟩, ⟨3, "LIST"⟩, ⟨4, "GHOST"⟩, ⟨5, "MAIN"⟩, ⟨6, "EXT"⟩] }

/-- Three of its six entries are illegal, and the others export two labels. -/
theorem entryExports_agree_entangledProgram :
    entangledProgram.IsUnresolved ∧
      (assemble entangledProgram {}).value.ExportsAgree ∧
      (assemble entangledProgram {}).value.entryExports = [("MAIN", 100), ("LIST", 115)] ∧
      ("EXT", 105) ∈ (assemble entangledProgram {}).value.externalReferences ∧
      ∀ name ∈ (assemble entangledProgram {}).value.entryExports.map Prod.fst,
        name ∉ (assemble entangledProgram {}).value.externalReferences.map Prod.fst := by
  have hunresolved : entangledProgram.IsUnresolved := by decide
  obtain ⟨-, hagree, hdisjoint⟩ := entryExports_agree entangledProgram {}
  exact ⟨hunresolved, hagree, by decide +kernel, by decide +kernel, hdisjoint hunresolved⟩

end SecondPass
