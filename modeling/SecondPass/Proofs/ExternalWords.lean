import Mathlib.Data.List.Sort
import SecondPass.Proofs.Emission
import SecondPass.Proofs.References

/-!
# External words

A linker looks at an image: the words of code with the external tag are the ones that it has to
fill in. `Image.externalAddresses` lists their load addresses, and for a fresh program that fits it
is the list of addresses in `Assembly.externalReferences`. Both lists ascend, so it is enough that
they have the same members (`mem_externalAddresses_iff`, `mem_externalReferences_iff`).
-/

namespace SecondPass

/-- The load addresses of the words with the external tag among the first `codeWords` words. -/
def Image.externalAddresses (image : Image) (codeWords : Nat) : List Nat :=
  ((image.loaded.take codeWords).filter fun loaded => loaded.2.era? == some .external).map
    Prod.fst

/-! ## Addresses in the image -/

/-- Words are loaded in ascending order. -/
theorem Image.loaded_pairwise_lt (image : Image) :
    image.loaded.Pairwise fun a b => a.1 < b.1 := by
  rw [loaded, List.pairwise_iff_getElem]
  intro i j hi hj hij
  rw [List.getElem_mapIdx, List.getElem_mapIdx]
  exact Nat.add_lt_add_left hij _

theorem Image.externalAddresses_pairwise_lt (image : Image) (codeWords : Nat) :
    (image.externalAddresses codeWords).Pairwise (· < ·) := by
  have hsublist : ((image.loaded.take codeWords).filter fun loaded =>
      loaded.2.era? == some .external).Sublist image.loaded :=
    List.filter_sublist.trans (List.take_sublist _ _)
  rw [externalAddresses, List.pairwise_map]
  exact image.loaded_pairwise_lt.sublist hsublist

/-- The first words of an image are what an image with these words alone would show. -/
theorem Image.take_loaded (image : Image) (count : Nat) :
    image.loaded.take count =
      Image.loaded { image with words := (image.words.toList.take count).toArray } := by
  apply List.ext_getElem?
  intro i
  rw [loaded, loaded, List.getElem?_mapIdx, List.getElem?_take, List.getElem?_take,
    List.getElem?_mapIdx]
  split <;> rfl

section Fits

variable {program : FirstPass} {config : Config}

/-- The external words of the code of a program that fits, by their places. -/
theorem mem_externalAddresses_iff
    (hfits : (assemble program config).value.image.dropped = 0) {address : Nat} :
    address ∈ (assemble program config).value.image.externalAddresses
        (codeSize program.lines) ↔
      ∃ offset word, (codeLayout program.lookup program.lines)[offset]? = some word ∧
        word.era? = some .external ∧ address = config.firstAddress + offset := by
  have hcode := (take_drop_words_of_dropped_eq_zero hfits).1
  have hfirst : (assemble program config).value.image.firstAddress = config.firstAddress := by
    rw [image_assemble]
    rfl
  rw [Image.externalAddresses, Image.take_loaded, hcode, hfirst]
  simp only [List.mem_map, List.mem_filter, beq_iff_eq]
  constructor
  · rintro ⟨⟨found, word⟩, ⟨hmem, hera⟩, rfl⟩
    obtain ⟨offset, hword, haddress⟩ := Image.mem_loaded_iff.1 hmem
    exact ⟨offset, word, hword, hera, haddress⟩
  · rintro ⟨offset, word, hword, hera, rfl⟩
    refine ⟨(config.firstAddress + offset, word), ⟨?_, hera⟩, rfl⟩
    exact Image.mem_loaded_iff.2 ⟨offset, hword, rfl⟩

/-- Every label of a program that fits has the address of its place. -/
theorem addressAfter_of_mem_labelUses
    (hfits : (assemble program config).value.image.dropped = 0) {label : LabelRef} {offset : Nat}
    (huse : (label, offset) ∈ labelUses program.lines) :
    config.addressAfter offset = config.firstAddress + offset :=
  (mem_loaded_of_dropped_eq_zero hfits (getElem?_layout_of_mem_labelUses huse)).2

/-- The references of a fresh program that fits ascend. -/
theorem externalReferences_pairwise_lt (hfresh : program.IsFresh)
    (hfits : (assemble program config).value.image.dropped = 0) :
    ((assemble program config).value.externalReferences.map Prod.snd).Pairwise (· < ·) := by
  rw [externalReferences_assemble hfresh, List.pairwise_map, List.pairwise_filterMap]
  refine (labelUses_pairwise_lt program.lines).imp_of_mem ?_
  rintro ⟨label, offset⟩ ⟨other, further⟩ huse hother hless ⟨name, address⟩ hname
    ⟨otherName, otherAddress⟩ hotherName
  obtain ⟨-, -, -, rfl⟩ := externalUse?_eq_some_iff.1 hname
  obtain ⟨-, -, -, rfl⟩ := externalUse?_eq_some_iff.1 hotherName
  show config.addressAfter offset < config.addressAfter further
  rw [addressAfter_of_mem_labelUses hfits huse, addressAfter_of_mem_labelUses hfits hother]
  exact Nat.add_lt_add_left hless _

/-- The references of a fresh program that fits lead to its external words, and to all of them. -/
theorem map_snd_externalReferences (hfresh : program.IsFresh)
    (hfits : (assemble program config).value.image.dropped = 0) :
    (assemble program config).value.externalReferences.map Prod.snd =
      (assemble program config).value.image.externalAddresses (codeSize program.lines) := by
  apply (externalReferences_pairwise_lt hfresh hfits).eq_of_mem_iff
    (Image.externalAddresses_pairwise_lt _ _)
  intro address
  rw [mem_externalAddresses_iff hfits, List.mem_map]
  constructor
  · rintro ⟨⟨name, found⟩, hmem, rfl⟩
    obtain ⟨label, offset, n, huse, hn, rfl, rfl⟩ := (mem_externalReferences_iff hfresh).1 hmem
    obtain ⟨word, hword, hera⟩ := (exists_external_iff hfresh).2 ⟨label, n, huse, hn⟩
    exact ⟨offset, word, hword, hera, addressAfter_of_mem_labelUses hfits huse⟩
  · rintro ⟨offset, word, hword, hera, rfl⟩
    obtain ⟨label, n, huse, hn⟩ := (exists_external_iff hfresh).1 ⟨word, hword, hera⟩
    refine ⟨(label.name, config.firstAddress + offset), ?_, rfl⟩
    rw [mem_externalReferences_iff hfresh]
    exact ⟨label, offset, n, huse, hn, rfl, addressAfter_of_mem_labelUses hfits huse⟩

end Fits

/-! ## Completeness of the view -/

/-- **External references are the external words.** The addresses in the view of a fresh program
that fits are the load addresses of all words of its code with the external tag, in ascending
order. The name beside an address is the one in the operand that the word at that address was made
from, and it lives in another module. -/
theorem externalReferences_eq_externalWords (program : FirstPass) (config : Config)
    (hfresh : program.IsFresh) (hfits : (assemble program config).value.image.dropped = 0) :
    (assemble program config).value.externalReferences.map Prod.snd =
        (assemble program config).value.image.externalAddresses (codeSize program.lines) ∧
      ((assemble program config).value.image.externalAddresses (codeSize program.lines)).Pairwise
        (· < ·) ∧
      ∀ (k : Nat) (name : String) (address : Nat),
        (assemble program config).value.externalReferences[k]? = some (name, address) →
        ((assemble program config).value.image.externalAddresses
            (codeSize program.lines))[k]? = some address ∧
          (∃ n, (assemble program config).value.symbols.address? name = some (.external n)) ∧
          ∃ i line placed position label,
            program.lines[i]? = some line ∧ line.isEncodable = true ∧
            (line.slot position).operand.label? = some label ∧ label.name = name ∧
            address = config.firstAddress +
              (codeSize (program.lines.take i) + line.operandOffset position) ∧
            (assemble program config).value.lines[i]? = some placed ∧
            (placed.slot position).emittedAt = some address ∧
            (address, (placed.slot position).operand.word position) ∈
              (assemble program config).value.image.loaded := by
  refine ⟨map_snd_externalReferences hfresh hfits,
    Image.externalAddresses_pairwise_lt _ _, ?_⟩
  intro k name address hk
  refine ⟨?_, ?_⟩
  · rw [← map_snd_externalReferences hfresh hfits, List.getElem?_map, hk, Option.map_some]
  obtain ⟨label, offset, n, huse, hn, rfl, rfl⟩ :=
    (mem_externalReferences_iff hfresh).1 (List.mem_of_getElem? hk)
  obtain ⟨hloaded, haddress⟩ :=
    mem_loaded_of_dropped_eq_zero hfits (getElem?_layout_of_mem_labelUses huse)
  have hroom : offset < config.usableCapacity :=
    lt_usableCapacity_of_mem_loaded (haddress ▸ hloaded)
  refine ⟨⟨n, by rw [symbols_assemble, address?_relocate, hn]⟩, ?_⟩
  obtain ⟨i, line, position, hi, hline, hlabel, rfl⟩ := mem_labelUses_iff.1 huse
  obtain ⟨placed, hplaced⟩ := exists_placed hi config
  have howns := Line.ownsWords_of_label? hline hlabel
  refine ⟨i, line, placed, position, label, hi, hline, hlabel, rfl, haddress, hplaced, ?_, ?_⟩
  · rw [emittedAt_assemble_slot hi hplaced, Line.emission, if_pos howns]
  · rw [haddress]
    exact word_mem_loaded_of_ownsWords hi hplaced howns hroom

/-- A program that uses labels of other modules twice on a line, on a line that fails for its other
operand and on a line that is passed over, and whose data look like such a use. -/
def linkedProgram : FirstPass where
  symbols := ⟨[⟨"EXT", .external 17⟩, ⟨"FAR", .external 0⟩], by decide⟩
  lines :=
    [ { number := 1, text := "cmp EXT, FAR[3]", opcode? := some .cmp
        source := { operand := .direct { name := "EXT" } }
        dest := { operand := .indexed { name := "FAR" } 3 } },
      { number := 2, text := "mov EXT, GONE", opcode? := some .mov
        source := { operand := .direct { name := "EXT" } }
        dest := { operand := .direct { name := "GONE" } } },
      { number := 3, text := "jsr EXT", opcode? := some .jsr, flagged := true
        dest := { operand := .direct { name := "EXT" } } },
      { number := 4, text := "hlt", opcode? := some .hlt } ]
  instructionCount := 108
  data := [1]
  dataCount := 1
  entries := []

/-- The words at 101, 102 and 105 are the external words of the code; the word of data at 108 has
the same tag bits and is none of them. -/
theorem externalReferences_linkedProgram :
    linkedProgram.IsFresh ∧ (assemble linkedProgram {}).value.image.dropped = 0 ∧
      (assemble linkedProgram {}).value.errorCount = 1 ∧
      (108, Word.data 1) ∈ (assemble linkedProgram {}).value.image.loaded ∧
      (Word.data 1).era? = some .external ∧
      (assemble linkedProgram {}).value.externalReferences.map Prod.snd = [101, 102, 105] := by
  have hfresh : linkedProgram.IsFresh := by decide
  have hfits : (assemble linkedProgram {}).value.image.dropped = 0 := rfl
  refine ⟨hfresh, hfits, rfl, by decide, rfl, ?_⟩
  exact (externalReferences_eq_externalWords linkedProgram {} hfresh hfits).1.trans rfl

end SecondPass
