import SecondPass.Proofs.Fields
import SecondPass.Proofs.Run

/-!
# Words as numbers

A word is the number that masks and shifts in a register of sixteen bits make (`WordForm.packed`),
whichever way the word came about. Read as a number, a payload is the residue of the value that was
put in, and a word of data is a residue as a whole. So of a value, an address or a mode that is too
wide for its field the residue is kept, and the tag is never touched.

The other way round, a word with a tag is made from its tag and its payload
(`Word.era?_eq_some_iff`), a word is an instruction exactly if its tag is absolute
(`Word.isSome_instruction?_iff`), and the fourteen digits of a word are its number in base two
(`Word.isBinary_binary`).
-/

namespace SecondPass

/-! ## Words in sixteen bits -/

namespace Word

/-- The low sixteen bits of a value. -/
def low16 (value : Int32) : UInt16 := value.toUInt32.toUInt16

/-- The low bits of a number, as many as the field is wide, moved to the place of the field. -/
def field (number : UInt16) (width place : Nat) : UInt16 :=
  (number &&& UInt16.ofNat (1 <<< width - 1)) <<< UInt16.ofNat place

/-- A value and a tag in sixteen bits. -/
def pack (era : Era) (value : Int32) : UInt16 :=
  field (low16 value) 12 2 ||| UInt16.ofNat era.code

end Word

/-- The ways to make a word. -/
inductive WordForm where
  | tagged (era : Era) (value : Int32)
  | data (value : Int32)
  | instruction (opcode : Opcode) (sourceMode destMode : UInt8)
  | registers (source dest : Option UInt8)
  | index (offset : Int32)
  | zero
  deriving DecidableEq, Repr

namespace WordForm

/-- The word that is made. -/
def word : WordForm → Word
  | tagged era value => .ofValue era value
  | data value => .data value
  | instruction opcode sourceMode destMode =>
    .instruction opcode sourceMode.toNat destMode.toNat
  | registers source dest => .registers (source.map UInt8.toNat) (dest.map UInt8.toNat)
  | index offset => .index offset
  | zero => .zero

/-- The word in sixteen bits. The fields of an instruction and of a pair of registers are put
together first, with places that count from the end of the tag, and the tag goes below them. -/
def packed : WordForm → UInt16
  | tagged era value => Word.pack era value
  | data value => Word.field (Word.low16 value) 14 0
  | instruction opcode sourceMode destMode =>
    let payload := Word.field destMode.toUInt16 2 0 ||| Word.field sourceMode.toUInt16 2 2 |||
      Word.field (UInt16.ofNat opcode.code) 4 4
    Word.pack .absolute payload.toUInt32.toInt32
  | registers source dest =>
    let payload := Word.field (dest.getD 0).toUInt16 3 0 |||
      Word.field (source.getD 0).toUInt16 3 3
    Word.pack .absolute payload.toUInt32.toInt32
  | index offset => Word.pack .absolute offset
  | zero => 0

end WordForm

namespace Word

theorem toNat_field (number : UInt16) {width place : Nat} (h : width + place < 16) :
    (field number width place).toNat = (number.toNat % 1 <<< width) <<< place := by
  have hwidth : 2 ^ width ≤ 2 ^ 16 := Nat.pow_le_pow_right (by decide) (by omega)
  have hmask : (UInt16.ofNat (2 ^ width - 1)).toNat = 2 ^ width - 1 := by
    apply UInt16.toNat_ofNat_of_lt'
    show 2 ^ width - 1 < 2 ^ 16
    have hpos := Nat.two_pow_pos width
    omega
  have hplace : (UInt16.ofNat place).toNat % 16 = place := by
    rw [UInt16.toNat_ofNat']
    omega
  -- the field ends below bit sixteen, so the shift loses nothing
  have hfits : (number.toNat % 2 ^ width) <<< place < 2 ^ 16 := by
    rw [Nat.shiftLeft_eq]
    calc number.toNat % 2 ^ width * 2 ^ place
        < 2 ^ width * 2 ^ place :=
          Nat.mul_lt_mul_of_pos_right (Nat.mod_lt _ (Nat.two_pow_pos width)) (Nat.two_pow_pos place)
      _ = 2 ^ (width + place) := (Nat.pow_add 2 width place).symm
      _ ≤ 2 ^ 16 := Nat.pow_le_pow_right (by decide) (by omega)
  rw [field, UInt16.toNat_shiftLeft, UInt16.toNat_and, Nat.one_shiftLeft, hmask, hplace,
    Nat.and_two_pow_sub_one_eq_mod, Nat.mod_eq_of_lt hfits]

/-- Sixteen bits survive the way through a value and back. -/
theorem low16_toInt32 (number : UInt16) : low16 number.toUInt32.toInt32 = number := by
  apply UInt16.toNat_inj.1
  show number.toNat % 65536 = number.toNat
  exact Nat.mod_eq_of_lt number.toNat_lt

/-- The number of a tagged word. -/
theorem value_tagged (era : Era) (payload : BitVec 12) :
    (tagged era payload).value = payload.toNat <<< 2 ||| era.code := by
  rw [value, tagged, BitVec.toNat_append, Era.toNat_tag]

theorem toNat_pack (era : Era) (value : Int32) :
    (pack era value).toNat = (tagged era (BitVec.ofNat 12 (low16 value).toNat)).value := by
  have hera : (UInt16.ofNat era.code).toNat = era.code := by cases era <;> rfl
  rw [pack, UInt16.toNat_or, toNat_field _ (by decide), hera, value_tagged, BitVec.toNat_ofNat]
  rfl

/-- The fields of an instruction at their places are the append of the fields. -/
theorem toNat_append_instruction (opcode sourceMode destMode : Nat) :
    (0#4 ++ BitVec.ofNat 4 opcode ++ BitVec.ofNat 2 sourceMode ++ BitVec.ofNat 2 destMode).toNat =
      destMode % 4 ||| (sourceMode % 4) <<< 2 ||| (opcode % 16) <<< 4 := by
  simp only [BitVec.toNat_append, BitVec.toNat_ofNat]
  show ((0 ||| opcode % 16) <<< 2 ||| sourceMode % 4) <<< 2 ||| destMode % 4 = _
  -- the append names the opcode first, the places start at the destination
  rw [Nat.zero_or, Nat.shiftLeft_or_distrib, ← Nat.shiftLeft_add, Nat.or_comm,
    Nat.or_comm _ ((sourceMode % 4) <<< 2), ← Nat.or_assoc]

/-- The fields of a register word at their places are the append of the fields. -/
theorem toNat_append_registers (source dest : Nat) :
    (0#6 ++ BitVec.ofNat 3 source ++ BitVec.ofNat 3 dest).toNat =
      dest % 8 ||| (source % 8) <<< 3 := by
  simp only [BitVec.toNat_append, BitVec.toNat_ofNat]
  show (0 ||| source % 8) <<< 3 ||| dest % 8 = _
  rw [Nat.zero_or, Nat.or_comm]

theorem toNat_pack_eq_value (era : Era) (value : Int32) :
    (pack era value).toNat = (ofValue era value).value := by
  have hbits : BitVec.ofNat 12 (low16 value).toNat = value.toBitVec.setWidth 12 := by
    apply BitVec.eq_of_toNat_eq
    rw [BitVec.toNat_ofNat, BitVec.toNat_setWidth]
    show value.toBitVec.toNat % 65536 % 4096 = value.toBitVec.toNat % 4096
    omega
  rw [toNat_pack, hbits, ofValue]

/-- Fields that were put together in sixteen bits make the word of their append. -/
theorem toNat_pack_of_toNat_eq {number : UInt16} {payload : BitVec 12}
    (h : number.toNat = payload.toNat) :
    (pack .absolute number.toUInt32.toInt32).toNat = (tagged .absolute payload).value := by
  rw [toNat_pack, low16_toInt32, h, BitVec.ofNat_toNat, BitVec.setWidth_eq]

end Word

/-- A word is the number that it is in sixteen bits. -/
theorem WordForm.value_word (form : WordForm) : form.word.value = form.packed.toNat := by
  cases form with
  | tagged era value => exact (Word.toNat_pack_eq_value era value).symm
  | data value =>
    rw [packed, Word.toNat_field _ (by decide)]
    show value.toBitVec.toNat % 16384 = (value.toBitVec.toNat % 65536) % 16384
    omega
  | instruction opcode sourceMode destMode =>
    symm
    apply Word.toNat_pack_of_toNat_eq
    have hcode : (UInt16.ofNat opcode.code).toNat = opcode.code := by cases opcode <;> rfl
    rw [UInt16.toNat_or, UInt16.toNat_or, Word.toNat_field _ (by decide),
      Word.toNat_field _ (by decide), Word.toNat_field _ (by decide), hcode,
      Word.toNat_append_instruction]
    rfl
  | registers source dest =>
    symm
    apply Word.toNat_pack_of_toNat_eq
    rw [UInt16.toNat_or, Word.toNat_field _ (by decide), Word.toNat_field _ (by decide),
      Word.toNat_append_registers]
    cases source <;> cases dest <;> rfl
  | index offset => exact (Word.toNat_pack_eq_value .absolute offset).symm
  | zero => rfl

/-! ## Residues -/

/-- A number stands for the tag that has it, and nothing else. -/
theorem Era.code_eq_of_ofCode? {n : Nat} {era : Era} (h : ofCode? n = some era) : era.code = n := by
  have hn : n < 3 := (List.getElem?_eq_some_iff.1 h).1
  revert h era
  revert n
  decide

/-- Every number of four bits stands for an opcode. -/
theorem Opcode.exists_ofCode? {n : Nat} (h : n < 16) : ∃ opcode, ofCode? n = some opcode :=
  ⟨_, List.getElem?_eq_getElem h⟩

namespace Word

/-- The payload is the residue of the value, which is never negative. -/
theorem payload_ofValue (era : Era) (value : Int32) :
    ((ofValue era value).payload : Int) = value.toInt % 4096 := by
  rw [ofValue_eq_tagged, payload_tagged_ofInt]
  exact Int.toNat_of_nonneg (Int.emod_nonneg _ (by decide))

/-- The payload of an address is its residue, whatever was cut off on the way. -/
theorem payload_ofValue_ofNat (era : Era) (n : Nat) :
    (ofValue era (Int32.ofNat n)).payload = n % 4096 := by
  rw [ofValue_ofNat, payload_tagged_ofNat]

/-- A word is made again from its tag and its payload. -/
theorem era?_eq_some_iff {w : Word} {era : Era} :
    w.era? = some era ↔ w = ofValue era (Int32.ofNat w.payload) := by
  constructor
  · intro h
    have htag : w.bits.extractLsb' 0 2 = era.tag := by
      apply BitVec.eq_of_toNat_eq
      rw [Era.toNat_tag, Era.code_eq_of_ofCode? h]
    have hbits : w.bits = w.bits.extractLsb' 2 12 ++ era.tag := by
      rw [← htag]
      exact (@BitVec.extractLsb'_append_extractLsb' 12 2 w.bits).symm
    rw [ofValue_ofNat, payload, BitVec.ofNat_toNat, BitVec.setWidth_eq, tagged, ← hbits]
  · intro h
    rw [h, era?_ofValue]

theorem ofValue_eq_iff {era era' : Era} {value value' : Int32} :
    ofValue era value = ofValue era' value' ↔
      era = era' ∧ value.toInt % 4096 = value'.toInt % 4096 := by
  constructor
  · intro h
    constructor
    · have hera : some era = some era' := by rw [← era?_ofValue era value, h, era?_ofValue]
      exact Option.some.inj hera
    · rw [← payload_ofValue era value, h, payload_ofValue]
  · rintro ⟨rfl, hvalue⟩
    have hpayload : (ofValue era value).payload = (ofValue era value').payload := by
      have hint : ((ofValue era value).payload : Int) = (ofValue era value').payload := by
        rw [payload_ofValue, payload_ofValue, hvalue]
      omega
    rw [era?_eq_some_iff.1 (era?_ofValue era value), hpayload,
      ← era?_eq_some_iff.1 (era?_ofValue era value')]

/-- A word of data is the residue of its value. -/
theorem value_data (value : Int32) : ((data value).value : Int) = value.toInt % 16384 := by
  have hbits : value.toBitVec.setWidth 14 = BitVec.ofInt 14 value.toInt := by
    rw [← BitVec.signExtend_eq_setWidth_of_le value.toBitVec (by decide)]
    rfl
  rw [data, Word.value, hbits, BitVec.toNat_ofInt]
  exact Int.toNat_of_nonneg (Int.emod_nonneg _ (by decide))

/-- The tag is the word modulo four, and three is no tag. -/
theorem era?_eq_none_iff {w : Word} : w.era? = none ↔ w.value % 4 = 3 := by
  have htag : (w.bits.extractLsb' 0 2).toNat = w.value % 4 := BitVec.extractLsb'_toNat 0 2 w.bits
  rw [era?, htag, Era.ofCode?, List.getElem?_eq_none_iff]
  show 3 ≤ w.value % 4 ↔ _
  omega

/-- A word can be read as an instruction exactly if its tag is absolute. -/
theorem isSome_instruction?_iff {w : Word} :
    w.instruction?.isSome = true ↔ w.era? = some .absolute := by
  obtain ⟨opcode, hopcode⟩ := Opcode.exists_ofCode? (w.bits.extractLsb' 6 4).isLt
  rw [instruction?, hopcode]
  rcases w.era? with _ | era
  · simp
  · cases era <;> simp

end Word

/-! ## Binary digits -/

/-- A text is a number in base two, written with as many digits as the width says. -/
structure IsBinary (text : String) (width number : Nat) : Prop where
  digit_mem : ∀ digit ∈ text.toList, digit = '0' ∨ digit = '1'
  length_eq : text.toList.length = width
  value_eq : Nat.ofDigitChars 2 text.toList 0 = number

namespace Word

/-- A digit of a word, counted from the highest. -/
def digit (w : Word) (i : Nat) : Char := if w.bits.getMsbD i then '1' else '0'

theorem toList_binary (w : Word) : w.binary.toList = (List.range 14).map w.digit :=
  String.toList_ofList

/-- The digit at a place is the lowest bit of what is left when the bits below are cut off. -/
theorem toNat_digit (w : Word) {i : Nat} (h : i < 14) :
    (w.digit i).toNat - '0'.toNat = w.value >>> (13 - i) % 2 := by
  have hbit : w.bits.getMsbD i = w.value.testBit (13 - i) := by
    simp [BitVec.getMsbD, h, value, BitVec.getLsbD]
  have hvalue : (w.value.testBit (13 - i)).toNat = w.value >>> (13 - i) % 2 := by
    rw [Nat.toNat_testBit, Nat.shiftRight_eq_div_pow]
  rw [← hvalue, digit, hbit]
  cases w.value.testBit (13 - i) <;> rfl

/-- The first digits of a word are the word without its low bits. -/
theorem ofDigitChars_digits (w : Word) {count : Nat} (h : count ≤ 14) :
    Nat.ofDigitChars 2 ((List.range count).map w.digit) 0 = w.value >>> (14 - count) := by
  induction count with
  | zero =>
    show 0 = w.value >>> 14
    rw [Nat.shiftRight_eq_div_pow, Nat.div_eq_of_lt w.value_lt]
  | succ count ih =>
    -- one more digit is one bit less to cut off
    have hshift : w.value >>> (14 - count) = w.value >>> (13 - count) / 2 := by
      rw [← Nat.shiftRight_succ]
      congr 1
      omega
    have hplace : 14 - (count + 1) = 13 - count := by omega
    rw [List.range_succ, List.map_append, Nat.ofDigitChars_append, ih (by omega), hshift,
      List.map_singleton, Nat.ofDigitChars_cons, Nat.ofDigitChars_nil, w.toNat_digit (by omega),
      hplace]
    omega

/-- A word is written as its number in base two. -/
theorem isBinary_binary (w : Word) : IsBinary w.binary 14 w.value := by
  constructor
  · intro c hc
    rw [toList_binary] at hc
    obtain ⟨i, -, rfl⟩ := List.mem_map.1 hc
    rw [digit]
    cases w.bits.getMsbD i
    · exact Or.inl rfl
    · exact Or.inr rfl
  · rw [toList_binary, List.length_map, List.length_range]
  · rw [toList_binary]
    exact w.ofDigitChars_digits (Nat.le_refl 14)

end Word

/-- **The code of words.** What a word is made of can be read back from it up to the widths of its
fields. The tag is kept and the payload is the residue of the value, so two tagged words are equal
exactly if their tags are equal and their values are congruent; the payload of a label is the
residue of its address. A word of data is the residue of its value, and has no tag exactly if the
value is three modulo four. An instruction keeps its opcode and the residues of its modes. Every way
to make a word gives the number that masks and shifts in sixteen bits give; it has fourteen bits,
and the word is written as fourteen digits that stand for it. Conversely, a word with a tag is made
from its tag and its payload, and a word is an instruction exactly if its tag is absolute. -/
theorem word_codec :
    (∀ era value, (Word.ofValue era value).era? = some era ∧
      ((Word.ofValue era value).payload : Int) = value.toInt % 4096) ∧
    (∀ era era' value value', Word.ofValue era value = Word.ofValue era' value' ↔
      era = era' ∧ value.toInt % 4096 = value'.toInt % 4096) ∧
    (∀ name address index position,
      ((Operand.direct ⟨name, some address⟩).word position).payload = address.number % 4096 ∧
      ((Operand.indexed ⟨name, some address⟩ index).word position).payload =
        address.number % 4096) ∧
    (∀ value, ((Word.data value).value : Int) = value.toInt % 16384 ∧
      ((Word.data value).era? = none ↔ value.toInt % 4 = 3)) ∧
    (∀ opcode sourceMode destMode,
      (Word.instruction opcode sourceMode destMode).instruction? =
        some ⟨opcode, sourceMode % 4, destMode % 4⟩) ∧
    (∀ form : WordForm, form.word.value = form.packed.toNat ∧ form.packed.toNat < 16384 ∧
      IsBinary form.word.binary 14 form.word.value) ∧
    (∀ (w : Word) (era : Era), w.era? = some era ↔ w = .ofValue era (Int32.ofNat w.payload)) ∧
    ∀ w : Word, w.instruction?.isSome = true ↔ w.era? = some .absolute := by
  refine ⟨?_, ?_, ?_, ?_, Word.instruction?_instruction, ?_, ?_, ?_⟩
  · intro era value
    exact ⟨Word.era?_ofValue era value, Word.payload_ofValue era value⟩
  · intro era era' value value'
    exact Word.ofValue_eq_iff
  · intro name address index position
    exact ⟨Word.payload_ofValue_ofNat _ address.number, Word.payload_ofValue_ofNat _ address.number⟩
  · intro value
    have hvalue := Word.value_data value
    refine ⟨hvalue, ?_⟩
    rw [Word.era?_eq_none_iff]
    omega
  · intro form
    have hvalue := form.value_word
    refine ⟨hvalue, ?_, form.word.isBinary_binary⟩
    rw [← hvalue]
    exact form.word.value_lt
  · intro w era
    exact Word.era?_eq_some_iff
  · intro w
    exact Word.isSome_instruction?_iff

end SecondPass
