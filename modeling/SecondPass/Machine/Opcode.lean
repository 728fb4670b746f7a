import SecondPass.Machine.Code

/-!
# Opcodes

The sixteen operations of the machine. Their order in `Opcode.all` is their numbering, and both
look-ups, by number and by mnemonic, are inverse to `code` and `mnemonic`.
-/

namespace SecondPass

/-- The operations of the machine. -/
inductive Opcode where
  | mov | cmp | add | sub
  | not | clr | lea | inc
  | dec | jmp | bne | red
  | prn | jsr | rts | hlt
  deriving DecidableEq, Repr

namespace Opcode

/-- All opcodes, in the order of their numbers. -/
def all : List Opcode :=
  [mov, cmp, add, sub, not, clr, lea, inc, dec, jmp, bne, red, prn, jsr, rts, hlt]

/-- The number in the opcode field of an instruction word. -/
def code : Opcode → Nat
  | mov => 0
  | cmp => 1
  | add => 2
  | sub => 3
  | not => 4
  | clr => 5
  | lea => 6
  | inc => 7
  | dec => 8
  | jmp => 9
  | bne => 10
  | red => 11
  | prn => 12
  | jsr => 13
  | rts => 14
  | hlt => 15

/-- The name of an opcode in source text. -/
def mnemonic : Opcode → String
  | mov => "mov"
  | cmp => "cmp"
  | add => "add"
  | sub => "sub"
  | not => "not"
  | clr => "clr"
  | lea => "lea"
  | inc => "inc"
  | dec => "dec"
  | jmp => "jmp"
  | bne => "bne"
  | red => "red"
  | prn => "prn"
  | jsr => "jsr"
  | rts => "rts"
  | hlt => "hlt"

/-- The opcode with a given number. -/
def ofCode? (n : Nat) : Option Opcode := all[n]?

/-- The opcode spelled exactly as given. -/
def ofMnemonic? (name : String) : Option Opcode := all.find? (·.mnemonic == name)

/-- Whether a name is spelled exactly like one of the mnemonics. -/
def isMnemonic (name : String) : Bool := (ofMnemonic? name).isSome

/-- The opcode with a given number, or the reason why there is none. -/
def ofCode (n : Nat) : Except LookupError Opcode :=
  match ofCode? n with
  | some op => .ok op
  | none => .error (.unknownCode .opcode n)

/-- The opcode spelled exactly as given, or the reason why there is none. -/
def ofMnemonic (name : String) : Except LookupError Opcode :=
  match ofMnemonic? name with
  | some op => .ok op
  | none => .error (.unknownMnemonic name)

/-! ## Numbers and mnemonics -/

theorem mem_all (op : Opcode) : op ∈ all := by cases op <;> decide

/-- Every number fits the four bits of the opcode field. -/
theorem code_lt (op : Opcode) : op.code < 16 := by cases op <;> decide

@[simp] theorem ofCode?_code (op : Opcode) : ofCode? op.code = some op := by cases op <;> rfl

@[simp] theorem ofMnemonic?_mnemonic (op : Opcode) : ofMnemonic? op.mnemonic = some op := by
  cases op <;> decide

/-- A name stands for the opcode spelled that way, and nothing else. -/
theorem ofMnemonic?_eq_some_iff {name : String} {op : Opcode} :
    ofMnemonic? name = some op ↔ op.mnemonic = name := by
  constructor
  · intro h
    simpa using List.find?_some h
  · rintro rfl
    exact ofMnemonic?_mnemonic op

end Opcode

end SecondPass
