import SecondPass.Proofs.Growth

/-!
# Load addresses

Whatever its settings ask for, an image is no larger than the room between its first address and the
end of the address space. So every word that it stores has a load address that fits a payload, and
no sum of addresses overflows, though the first address may be any number of 64 bits: one past the
address space leaves no room at all, and the address of the next word then stands still.
-/

namespace SecondPass

namespace Image

/-- The load addresses of an image are in range. -/
structure InRange (image : Image) : Prop where
  /-- A word is stored at an address of twelve bits. -/
  address_lt : ∀ address word, (address, word) ∈ image.loaded → address < addressSpace
  /-- Words are stored one behind the other, the first at the first address. -/
  addresses_eq : image.loaded.map Prod.fst = List.range' image.firstAddress image.size
  nextAddress_le : image.nextAddress ≤ max image.firstAddress addressSpace
  /-- Where the first address is a number of 64 bits, so are the address of the next word and that
  of every word stored. -/
  no_overflow : image.firstAddress < UInt64.size →
    image.firstAddress + image.size < UInt64.size ∧
      ∀ i, i < image.size → image.firstAddress + i < UInt64.size

theorem map_fst_loaded (image : Image) :
    image.loaded.map Prod.fst = List.range' image.firstAddress image.size := by
  apply List.ext_getElem
  · simp [loaded, size]
  · intro i hi hi'
    simp [loaded]

/-- An image that fits the room above its first address is in range. -/
theorem inRange_of_size_le {image : Image} (h : image.size ≤ roomAbove image.firstAddress) :
    image.InRange := by
  have hroom : image.size ≤ addressSpace - image.firstAddress := h
  have hspace : addressSpace = 4096 := rfl
  refine ⟨?_, map_fst_loaded image, ?_, ?_⟩
  · intro address word hmem
    obtain ⟨i, hi, rfl⟩ := mem_loaded_iff.1 hmem
    have hlt : i < image.size := (List.getElem?_eq_some_iff.1 hi).1
    omega
  · rw [nextAddress]
    rcases Nat.lt_or_ge image.firstAddress addressSpace with hinside | houtside
    · rw [Nat.max_eq_right (Nat.le_of_lt hinside)]
      omega
    · rw [Nat.max_eq_left houtside]
      omega
  · intro hfirst
    have hbits : UInt64.size = 18446744073709551616 := rfl
    refine ⟨by omega, ?_⟩
    intro i hi
    omega

/-- An image that was made from settings fits the room above its first address, after any steps and
any further words. -/
theorem size_offer_run_le (config : Config) (steps : List ImageStep) (words : List Word) :
    (((Image.new config).run steps).value.offer words).size ≤ roomAbove config.firstAddress := by
  have hcapacity : (((Image.new config).run steps).value.offer words).capacity =
      config.usableCapacity := by
    rw [capacity_offer, (growsTo_run (Image.new config) steps).capacity_eq]
    rfl
  calc (((Image.new config).run steps).value.offer words).size
      ≤ (((Image.new config).run steps).value.offer words).capacity :=
        ((follows_run config steps).offer words).size_le
    _ = config.usableCapacity := hcapacity
    _ ≤ roomAbove config.firstAddress := Nat.min_le_right _ _

theorem inRange_offer_run (config : Config) (steps : List ImageStep) (words : List Word) :
    (((Image.new config).run steps).value.offer words).InRange := by
  apply inRange_of_size_le
  rw [firstAddress_offer, (growsTo_run (Image.new config) steps).firstAddress_eq]
  exact size_offer_run_le config steps words

end Image

/-- The image of an assembled program is in range. -/
theorem inRange_assemble (program : FirstPass) (config : Config) :
    (assemble program config).value.image.InRange := by
  rw [image_assemble]
  exact Image.inRange_offer_run config [] program.layout

/-- **Load addresses are in range.** Take an image that was made from any settings and went through
any steps. Its words are stored one behind the other from the first address of the settings on, at
addresses that fit a payload; the address of the next word is at most the first address or the end
of the address space; and no sum of addresses overflows. All this stays so whatever words are
offered next, in particular in the middle of a step, when it has offered some of its words. -/
theorem load_addresses_in_range (config : Config) (steps : List ImageStep) :
    let image := ((Image.new config).run steps).value
    image.firstAddress = config.firstAddress ∧
      image.InRange ∧
      ∀ words : List Word, (image.offer words).InRange := by
  intro image
  refine ⟨(Image.growsTo_run (Image.new config) steps).firstAddress_eq, ?_,
    Image.inRange_offer_run config steps⟩
  have hrange := Image.inRange_offer_run config steps []
  rwa [Image.offer_nil] at hrange

/-- Settings with the largest first address of 64 bits leave room for no word, and the sum that
gives the next address does not overflow. Two words below the end of the address space there is room
for two words, whatever the capacity. -/
theorem load_addresses_in_range_extreme :
    let steps : List ImageStep := [.push .zero, .appendData [7, 8] 2]
    let outside := ((Image.new
      { firstAddress := UInt64.size - 1, capacity := UInt64.size - 1 }).run steps).value
    let inside := ((Image.new
      { firstAddress := 4094, capacity := UInt64.size - 1 }).run steps).value
    outside.firstAddress = UInt64.size - 1 ∧ outside.firstAddress + outside.size < UInt64.size ∧
      inside.loaded.map Prod.fst = [4094, 4095] ∧ inside.nextAddress ≤ 4096 := by
  intro steps outside inside
  obtain ⟨hfirst, houtside, -⟩ :=
    load_addresses_in_range { firstAddress := UInt64.size - 1, capacity := UInt64.size - 1 } steps
  obtain ⟨-, hinside, -⟩ :=
    load_addresses_in_range { firstAddress := 4094, capacity := UInt64.size - 1 } steps
  have hbits : outside.firstAddress < UInt64.size := by
    rw [hfirst]
    decide
  refine ⟨hfirst, (houtside.no_overflow hbits).1, ?_, hinside.nextAddress_le⟩
  have hsize : inside.size = 2 := by decide
  rw [hinside.addresses_eq, hsize]
  decide

end SecondPass
