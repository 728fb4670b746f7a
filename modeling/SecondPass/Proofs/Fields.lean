import SecondPass.Machine.Word

/-!
# Reading fields back

A word is an append of its fields. A reader cuts the fields below away one by one
(`BitVec.extractLsb'_append_eq_of_le`) and gets a field back as it was put in, reduced to its own
width. These are the laws that every reader of an image relies on.
-/

namespace SecondPass

namespace Word

/-- An instruction word gives its opcode back, and each mode as far as two bits go. -/
theorem instruction?_instruction (opcode : Opcode) (sourceMode destMode : Nat) :
    (instruction opcode sourceMode destMode).instruction? =
      some ⟨opcode, sourceMode % 4, destMode % 4⟩ := by
  have hera : (instruction opcode sourceMode destMode).era? = some .absolute :=
    era?_tagged _ _
  -- the fields lie above the tag, in the order destination mode, source mode, opcode
  have hdest : (instruction opcode sourceMode destMode).bits.extractLsb' 2 2 =
      BitVec.ofNat 2 destMode := by
    rw [instruction, tagged, BitVec.extractLsb'_append_eq_of_le (by decide)]
    exact BitVec.extractLsb'_append_eq_right
  have hsource : (instruction opcode sourceMode destMode).bits.extractLsb' 4 2 =
      BitVec.ofNat 2 sourceMode := by
    rw [instruction, tagged, BitVec.extractLsb'_append_eq_of_le (by decide),
      BitVec.extractLsb'_append_eq_of_le (by decide)]
    exact BitVec.extractLsb'_append_eq_right
  have hopcode : (instruction opcode sourceMode destMode).bits.extractLsb' 6 4 =
      BitVec.ofNat 4 opcode.code := by
    rw [instruction, tagged, BitVec.extractLsb'_append_eq_of_le (by decide),
      BitVec.extractLsb'_append_eq_of_le (by decide),
      BitVec.extractLsb'_append_eq_of_le (by decide)]
    exact BitVec.extractLsb'_append_eq_right
  have hcode : opcode.code % 2 ^ 4 = opcode.code := Nat.mod_eq_of_lt opcode.code_lt
  rw [instruction?, hera, hopcode, hsource, hdest, BitVec.toNat_ofNat, BitVec.toNat_ofNat,
    BitVec.toNat_ofNat, hcode, Opcode.ofCode?_code]

/-- A register word gives both registers back as far as three bits go, a missing one as zero. -/
theorem registerFields_registers (source dest : Option Nat) :
    (registers source dest).registerFields = ⟨source.getD 0 % 8, dest.getD 0 % 8⟩ := by
  have hdest : (registers source dest).bits.extractLsb' 2 3 =
      BitVec.ofNat 3 (dest.getD 0) := by
    rw [registers, tagged, BitVec.extractLsb'_append_eq_of_le (by decide)]
    exact BitVec.extractLsb'_append_eq_right
  have hsource : (registers source dest).bits.extractLsb' 5 3 =
      BitVec.ofNat 3 (source.getD 0) := by
    rw [registers, tagged, BitVec.extractLsb'_append_eq_of_le (by decide),
      BitVec.extractLsb'_append_eq_of_le (by decide)]
    exact BitVec.extractLsb'_append_eq_right
  rw [registerFields, hsource, hdest, BitVec.toNat_ofNat, BitVec.toNat_ofNat]

/-- The payload of an address is its residue. -/
theorem payload_tagged_ofNat (era : Era) (n : Nat) :
    (tagged era (BitVec.ofNat 12 n)).payload = n % 4096 := by
  rw [payload_tagged, BitVec.toNat_ofNat]

/-- The payload of a number is its residue, which is never negative. -/
theorem payload_tagged_ofInt (era : Era) (value : Int) :
    (tagged era (BitVec.ofInt 12 value)).payload = (value % 4096).toNat := by
  rw [payload_tagged, BitVec.toNat_ofInt]
  rfl

end Word

end SecondPass
