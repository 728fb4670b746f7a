import SecondPass.Proofs.Uses

/-!
# External references

The view `Assembly.externalReferences` is put together from what the slots remember, not from the
image. For a fresh program it lists the uses of external labels in the order of their words
(`externalReferences_assemble`). A slot remembers an address even if the image had no room left for
its word, so the view can be trusted exactly when no word with the external tag was dropped.
-/

namespace SecondPass

/-- The reference that a use of a label makes if the label lives in another module. -/
def externalUse? (lookup : String → Option Address) (address : Nat → Nat)
    (use : LabelRef × Nat) : Option (String × Nat) :=
  if (lookup use.1.name).any Address.isExternal then some (use.1.name, address use.2) else none

theorem externalUse?_eq_some_iff {lookup : String → Option Address} {address : Nat → Nat}
    {use : LabelRef × Nat} {name : String} {target : Nat} :
    externalUse? lookup address use = some (name, target) ↔
      ∃ n, lookup name = some (.external n) ∧ use.1.name = name ∧ address use.2 = target := by
  unfold externalUse?
  constructor
  · intro h
    split at h
    · rename_i hexternal
      obtain ⟨rfl, rfl⟩ : use.1.name = name ∧ address use.2 = target := by simpa using h
      cases haddress : lookup use.1.name with
      | none => simp [haddress] at hexternal
      | some found =>
        cases found with
        | external n => exact ⟨n, rfl, rfl, rfl⟩
        | _ => simp [haddress, Address.isExternal] at hexternal
    · simp at h
  · rintro ⟨n, hn, rfl, rfl⟩
    simp [hn, Address.isExternal]

/-! ## From slots to uses -/

/-- A fresh label turns external if its name lives in another module. -/
theorem LabelRef.isExternal_settle {label : LabelRef} (h : label.resolved = none)
    (lookup : String → Option Address) :
    (label.settle lookup).isExternal = (lookup label.name).any Address.isExternal := by
  simp only [isExternal, settle, h, Option.or_none]
  cases lookup label.name <;> rfl

/-- A slot without a label makes no reference. -/
theorem Slot.externalReference?_of_label?_eq_none {slot : Slot}
    (h : slot.operand.label? = none) : slot.externalReference? = none := by
  simp [externalReference?, h]

theorem Slot.externalReference?_of_isFresh {slot : Slot} (h : slot.IsFresh) :
    slot.externalReference? = none := by
  unfold externalReference?
  rw [h.2]
  cases slot.operand.label? <;> rfl

theorem Slot.externalReference?_place {slot : Slot} (hfresh : slot.IsFresh)
    (lookup : String → Option Address) (address : Nat → Nat) (offset : Nat) :
    (slot.place lookup (address offset)).externalReference? =
      (slot.operand.label?.map fun label => (label, offset)).bind
        (externalUse? lookup address) := by
  cases hlabel : slot.operand.label? with
  | none =>
    refine externalReference?_of_label?_eq_none ?_
    simp [place, hlabel]
  | some label =>
    have hresolved : label.resolved = none := by simpa [hlabel] using hfresh.1
    simp [externalReference?, place, hlabel, Operand.isPresent_of_label? hlabel,
      LabelRef.isExternal_settle hresolved, externalUse?]

/-- The references of an encoded line are the external ones of its uses. -/
theorem Line.references_place {line : Line} (hsource : line.source.IsFresh)
    (hdest : line.dest.IsFresh) (lookup : String → Option Address) (config : Config)
    (address : Nat → Nat) :
    (line.place lookup config address).slots.filterMap Slot.externalReference? =
      line.labelUses.filterMap (externalUse? lookup address) := by
  unfold place labelUses
  cases hline : line.isEncodable with
  | false =>
    simp [slots, Slot.externalReference?_of_isFresh hsource,
      Slot.externalReference?_of_isFresh hdest]
  | true =>
    cases hpair : line.isRegisterPair with
    | true =>
      obtain ⟨source, dest, hs, hd⟩ := isRegisterPair_iff.1 hpair
      simp [slots, slot, hs, hd, Operand.label?, Slot.externalReference?]
    | false =>
      rw [if_pos rfl, if_neg (by simp), if_pos rfl, List.filterMap_filterMap]
      show [Position.source, Position.dest].filterMap (fun position =>
          ((line.slot position).place lookup
            (address (line.operandOffset position))).externalReference?) = _
      congr 1
      funext position
      cases position with
      | source => exact Slot.externalReference?_place hsource lookup address _
      | dest => exact Slot.externalReference?_place hdest lookup address _

theorem references_placeLines {lines : List Line}
    (hfresh : ∀ line ∈ lines, line.source.IsFresh ∧ line.dest.IsFresh)
    (lookup : String → Option Address) (config : Config) (address : Nat → Nat) :
    ((placeLines lookup config address lines).flatMap Line.slots).filterMap
        Slot.externalReference? =
      (labelUses lines).filterMap (externalUse? lookup address) := by
  induction lines generalizing address with
  | nil => rfl
  | cons line rest ih =>
    obtain ⟨hsource, hdest⟩ := hfresh line List.mem_cons_self
    rw [placeLines, List.flatMap_cons, List.filterMap_append, labelUses, List.filterMap_append,
      line.references_place hsource hdest, List.filterMap_map,
      ih fun other hother => hfresh other (List.mem_cons_of_mem _ hother)]
    rfl

/-- The view of a fresh program lists the uses of external labels in the order of their words. -/
theorem externalReferences_assemble {program : FirstPass} (hfresh : program.IsFresh)
    (config : Config) :
    (assemble program config).value.externalReferences =
      (labelUses program.lines).filterMap (externalUse? program.lookup config.addressAfter) := by
  rw [Assembly.externalReferences, lines_assemble]
  exact references_placeLines hfresh program.lookup config config.addressAfter

theorem mem_externalReferences_iff {program : FirstPass} (hfresh : program.IsFresh)
    {config : Config} {name : String} {target : Nat} :
    (name, target) ∈ (assemble program config).value.externalReferences ↔
      ∃ label offset n, (label, offset) ∈ labelUses program.lines ∧
        program.lookup name = some (.external n) ∧ label.name = name ∧
        config.addressAfter offset = target := by
  rw [externalReferences_assemble hfresh, List.mem_filterMap]
  constructor
  · rintro ⟨⟨label, offset⟩, huse, hreference⟩
    obtain ⟨n, hn, hname, htarget⟩ := externalUse?_eq_some_iff.1 hreference
    exact ⟨label, offset, n, huse, hn, hname, htarget⟩
  · rintro ⟨label, offset, n, huse, hn, hname, htarget⟩
    exact ⟨(label, offset), huse, externalUse?_eq_some_iff.2 ⟨n, hn, hname, htarget⟩⟩

/-! ## From uses to words -/

/-- A fresh label has an external word only if its name lives in another module. -/
theorem LabelRef.lookup_of_era?_layout {lookup : String → Option Address} {label : LabelRef}
    (hresolved : label.resolved = none) (h : (label.layout lookup).era? = some .external) :
    ∃ n, lookup label.name = some (.external n) := by
  cases haddress : lookup label.name with
  | none => simp [layout, haddress, hresolved] at h
  | some address =>
    rw [layout_of_lookup haddress] at h
    cases address with
    | external n => exact ⟨n, rfl⟩
    | _ => simp [Address.word] at h

/-- The labels that a fresh program uses are unresolved. -/
theorem resolved_eq_none_of_mem_labelUses {program : FirstPass} (hfresh : program.IsFresh)
    {label : LabelRef} {offset : Nat} (h : (label, offset) ∈ labelUses program.lines) :
    label.resolved = none := by
  obtain ⟨i, line, position, hi, -, hlabel, -⟩ := mem_labelUses_iff.1 h
  obtain ⟨hsource, hdest⟩ := hfresh line (List.mem_of_getElem? hi)
  have hslot : (line.slot position).IsFresh := by
    cases position with
    | source => exact hsource
    | dest => exact hdest
  simpa [hlabel] using hslot.1

/-- A word with the external tag stands in a place exactly if an external label is used there. -/
theorem exists_external_iff {program : FirstPass} (hfresh : program.IsFresh) {offset : Nat} :
    (∃ word, (codeLayout program.lookup program.lines)[offset]? = some word ∧
        word.era? = some .external) ↔
      ∃ label n, (label, offset) ∈ labelUses program.lines ∧
        program.lookup label.name = some (.external n) := by
  constructor
  · rintro ⟨word, hword, hera⟩
    obtain ⟨label, huse⟩ := exists_labelUse_of_era?_ne hword (by simp [hera])
    rw [getElem?_codeLayout_of_mem_labelUses huse] at hword
    obtain rfl : _ = word := Option.some.inj hword
    obtain ⟨n, hn⟩ :=
      LabelRef.lookup_of_era?_layout (resolved_eq_none_of_mem_labelUses hfresh huse) hera
    exact ⟨label, n, huse, hn⟩
  · rintro ⟨label, n, huse, hn⟩
    refine ⟨_, getElem?_codeLayout_of_mem_labelUses huse program.lookup, ?_⟩
    rw [LabelRef.layout_of_lookup hn, Address.word, Word.era?_tagged]

/-! ## Soundness of the view -/

/-- The view of external references is sound when every reference leads to a stored word with the
external tag and the number of the label, and no two lead to the same word. -/
def Assembly.ReferencesSound (assembly : Assembly) : Prop :=
  (∀ name address, (name, address) ∈ assembly.externalReferences →
      ∃ word n, (address, word) ∈ assembly.image.loaded ∧ word.era? = some .external ∧
        assembly.symbols.address? name = some (.external n) ∧ word.payload = n % 4096) ∧
    (assembly.externalReferences.map Prod.snd).Nodup

/-- **When external references can be trusted.** The view of a fresh program is sound if and only
if every word of its code with the external tag has a place in the image. -/
theorem referencesSound_iff (program : FirstPass) (config : Config) (hfresh : program.IsFresh) :
    (assemble program config).value.ReferencesSound ↔
      ∀ offset word, (codeLayout program.lookup program.lines)[offset]? = some word →
        word.era? = some .external → offset < config.usableCapacity := by
  constructor
  -- a reference whose word was dropped has the address past the last word
  · rintro ⟨hstored, -⟩ offset word hword hera
    obtain ⟨label, n, huse, hn⟩ := (exists_external_iff hfresh).1 ⟨word, hword, hera⟩
    have hmem : (label.name, config.addressAfter offset) ∈
        (assemble program config).value.externalReferences :=
      (mem_externalReferences_iff hfresh).2 ⟨label, offset, n, huse, hn, rfl, rfl⟩
    obtain ⟨stored, -, hloaded, -⟩ := hstored _ _ hmem
    exact lt_usableCapacity_of_mem_loaded hloaded
  · intro hroom
    have hlt : ∀ label offset n, (label, offset) ∈ labelUses program.lines →
        program.lookup label.name = some (.external n) → offset < config.usableCapacity := by
      intro label offset n huse hn
      obtain ⟨word, hword, hera⟩ := (exists_external_iff hfresh).2 ⟨label, n, huse, hn⟩
      exact hroom offset word hword hera
    refine ⟨?_, ?_⟩
    · intro name address hmem
      obtain ⟨label, offset, n, huse, hn, rfl, rfl⟩ := (mem_externalReferences_iff hfresh).1 hmem
      have hword := getElem?_layout_of_mem_labelUses huse
      rw [LabelRef.layout_of_lookup hn, Address.word] at hword
      refine ⟨_, n, mem_loaded_of_getElem?_layout hword (hlt label offset n huse hn),
        Word.era?_tagged _ _, ?_, ?_⟩
      · rw [symbols_assemble, address?_relocate, hn]
      · rw [Word.payload_tagged, BitVec.toNat_ofNat]
    -- places ascend, and below the capacity different places are different addresses
    · rw [externalReferences_assemble hfresh, List.Nodup, List.pairwise_map,
        List.pairwise_filterMap]
      refine (labelUses_pairwise_lt program.lines).imp_of_mem ?_
      rintro ⟨label, offset⟩ ⟨other, further⟩ huse hother hless ⟨name, address⟩ hname
        ⟨otherName, otherAddress⟩ hotherName
      obtain ⟨n, hn, rfl, rfl⟩ := externalUse?_eq_some_iff.1 hname
      obtain ⟨m, hm, rfl, rfl⟩ := externalUse?_eq_some_iff.1 hotherName
      have hoffset := hlt label offset n huse hn
      have hfurther := hlt other further m hother hm
      simp only [Config.addressAfter, ne_eq] at hless ⊢
      omega

/-- The sample uses its external label in the places 5 and 8. With room for both its references are
sound; with room for five words both lead to the address past the last word. -/
theorem referencesSound_sampleProgram :
    sampleProgram.IsFresh ∧ (assemble sampleProgram {}).value.ReferencesSound ∧
      ¬ (assemble sampleProgram { capacity := 5 }).value.ReferencesSound ∧
      (assemble sampleProgram { capacity := 5 }).value.externalReferences =
        [("EXT", 105), ("EXT", 105)] := by
  have hfresh : sampleProgram.IsFresh := by decide
  refine ⟨hfresh, ?_, ?_, rfl⟩
  · rw [referencesSound_iff sampleProgram {} hfresh]
    intro offset word hword _
    have hlt : offset < 14 := (List.getElem?_eq_some_iff.1 hword).1
    show offset < 3996
    omega
  · rw [referencesSound_iff sampleProgram { capacity := 5 } hfresh]
    intro hroom
    exact absurd (hroom 5 _ rfl rfl) (by decide)

end SecondPass
