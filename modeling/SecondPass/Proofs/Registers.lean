import SecondPass.Proofs.Fields
import SecondPass.Proofs.LabelGrammar
import SecondPass.Proofs.Run

/-!
# Registers in text, in operands and in words

A register is met in three places: text names it, an operand that holds its number has to resolve,
and a word has three bits for it. Each place has a limit of its own on the number. The first two
agree, also with settings that ask for more registers than there are: a text names a register
exactly if it is how an accepted operand is written (`registerOfName?_eq_some_iff_text`,
`Operand.isAccepted_register_iff`). A number that they let through fits its three bits
(`Operand.IsAccepted.lt_registerLimit`).
-/

namespace SecondPass

/-! ## Text -/

/-- A number below ten is written with one digit. -/
theorem Operand.toList_text_register {number : Nat} (h : number < 10) :
    (Operand.register number).text.toList = ['r', number.digitChar] := by
  rw [text, String.toList_append, Nat.toString_eq_repr, Nat.toList_repr, Nat.toDigits_of_lt_base h]
  rfl

/-- The text that names a register is how an operand with that register is written. -/
theorem registerOfName?_eq_some_iff_text {text : String} {count number : Nat} :
    registerOfName? text count = some number ↔
      text = (Operand.register number).text ∧ number < min count registerLimit := by
  rw [registerOfName?_eq_some_iff, and_comm]
  apply and_congr_left
  intro hlt
  have hten : number < 10 := by
    rw [registerLimit] at hlt
    omega
  rw [← Operand.toList_text_register hten, String.toList_inj]

/-! ## Operands -/

/-- An operand is accepted when it resolves and nothing is reported about it. -/
def Operand.IsAccepted (operand : Operand) (symbols : SymbolTable .final) (config : Config)
    (line : Nat) : Prop :=
  (operand.resolve symbols config line).value.ok = true ∧
    (operand.resolve symbols config line).diagnostics = []

theorem Operand.isAccepted_register_iff {number : Nat} {symbols : SymbolTable .final}
    {config : Config} {line : Nat} :
    (Operand.register number).IsAccepted symbols config line ↔ number < config.usableRegisters := by
  rw [IsAccepted, Logged.diagnostics, value_resolve, diagnostics_resolve]
  by_cases h : number < config.usableRegisters
  · simp [complaints, resolves, h]
  · simp [resolves, h]

/-- An accepted register fits its three bits, however many registers the settings ask for. -/
theorem Operand.IsAccepted.lt_registerLimit {number : Nat} {symbols : SymbolTable .final}
    {config : Config} {line : Nat}
    (h : (Operand.register number).IsAccepted symbols config line) : number < registerLimit :=
  Nat.lt_of_lt_of_le (Operand.isAccepted_register_iff.1 h) config.usableRegisters_le

/-! ## Words -/

/-- A word that gives two registers back and whose payload is final. -/
structure Word.HoldsRegisters (w : Word) (source dest : Nat) : Prop where
  registerFields_eq : w.registerFields = ⟨source, dest⟩
  era?_eq : w.era? = some .absolute

/-- Registers that fit their three bits are held as they are, a missing one as zero. -/
theorem Word.holdsRegisters_registers {source dest : Option Nat}
    (hsource : source.getD 0 < registerLimit) (hdest : dest.getD 0 < registerLimit) :
    (Word.registers source dest).HoldsRegisters (source.getD 0) (dest.getD 0) := by
  constructor
  · have hsourceExact : source.getD 0 % 8 = source.getD 0 := Nat.mod_eq_of_lt hsource
    have hdestExact : dest.getD 0 % 8 = dest.getD 0 := Nat.mod_eq_of_lt hdest
    rw [registerFields_registers, hsourceExact, hdestExact]
  · exact era?_tagged _ _

/-- **One notion of a register.** A text names a register under a register count if and only if it
is how an operand with that register is written and that operand is accepted under settings with the
same count. Two registers that are accepted, or one of them in its own half of a word, are read back
from the word as they are. -/
theorem registers_agree (count : Nat) (config : Config) (symbols : SymbolTable .final)
    (line : Nat) :
    (∀ text number, registerOfName? text count = some number ↔
      text = (Operand.register number).text ∧
        (Operand.register number).IsAccepted symbols { config with registerCount := count } line) ∧
      ∀ source dest,
        (Operand.register source).IsAccepted symbols { config with registerCount := count } line →
        (Operand.register dest).IsAccepted symbols { config with registerCount := count } line →
        (Word.registers (some source) (some dest)).HoldsRegisters source dest ∧
          (Word.registers (some source) none).HoldsRegisters source 0 ∧
          (Word.registers none (some dest)).HoldsRegisters 0 dest := by
  constructor
  · intro text number
    rw [registerOfName?_eq_some_iff_text, Operand.isAccepted_register_iff]
    rfl
  · intro source dest hsource hdest
    have hzero : 0 < registerLimit := by decide
    have hsourceLt := hsource.lt_registerLimit
    have hdestLt := hdest.lt_registerLimit
    exact ⟨Word.holdsRegisters_registers hsourceLt hdestLt,
      Word.holdsRegisters_registers hsourceLt hzero, Word.holdsRegisters_registers hzero hdestLt⟩

/-- Under settings that ask for two hundred registers, `r7` is a register and comes back from a
word, and `r8` is none. -/
theorem registers_agree_twoHundred :
    registerOfName? "r7" 200 = some 7 ∧ registerOfName? "r8" 200 = none ∧
      (Word.registers (some 7) none).HoldsRegisters 7 0 := by
  obtain ⟨hname, hword⟩ := registers_agree 200 {} SymbolTable.empty 1
  have hseven := ((hname "r7" 7).1 rfl).2
  exact ⟨rfl, rfl, (hword 7 7 hseven hseven).2.1⟩

end SecondPass
