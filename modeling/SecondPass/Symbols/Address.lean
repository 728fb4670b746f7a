/-!
# Addresses of labels

A label lives in the code segment, in the data segment or in another module, and its `Address` says
where. Addresses in the data segment count from the start of that segment until `relocate` moves
them past the code. Addresses are numbers of 64 bits, and a sum that needs more wraps around.
-/

namespace SecondPass

/-- The address of a label, by the place where the label lives. -/
inductive Address where
  /-- An address in the code segment. -/
  | code (n : Nat)
  /-- An address in the data segment. -/
  | data (n : Nat)
  /-- A label of another module; the number only holds the place. -/
  | external (n : Nat)
  deriving DecidableEq, Repr

namespace Address

/-- The number of an address, wherever the label lives. -/
def number : Address → Nat
  | code n => n
  | data n => n
  | external n => n

/-- Whether the label lives in the data segment. -/
def isData : Address → Bool
  | data _ => true
  | _ => false

/-- Whether the label lives in another module. -/
def isExternal : Address → Bool
  | external _ => true
  | _ => false

/-- Moves an address in the data segment past a code segment of the given length, and leaves other
addresses where they are. The sum is one of 64 bits. -/
def relocate (codeLength : Nat) : Address → Address
  | data n => data ((n + codeLength) % UInt64.size)
  | a => a

/-- How an address is written. -/
def text : Address → String
  | code n => "CODE[" ++ toString n ++ "]"
  | data n => "DATA[" ++ toString n ++ "]"
  | external _ => "EXTERN"

/-- The place of a segment in the order of addresses: code, then data, then other modules. -/
def rank : Address → Nat
  | code _ => 0
  | data _ => 1
  | external _ => 2

/-- The order of addresses: by segment, then by number. -/
def le (a b : Address) : Bool :=
  decide (a.rank < b.rank ∨ (a.rank = b.rank ∧ a.number ≤ b.number))

/-- Addresses in ascending order. -/
def sorted (addresses : List Address) : List Address := addresses.mergeSort le

/-! ## Relocation -/

/-- Without overflow an address of data moves by exactly the length of the code. -/
theorem relocate_data_of_lt {n codeLength : Nat} (h : n + codeLength < UInt64.size) :
    (data n).relocate codeLength = data (n + codeLength) := by
  rw [relocate, Nat.mod_eq_of_lt h]

end Address

end SecondPass
