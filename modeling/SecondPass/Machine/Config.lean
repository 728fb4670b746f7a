/-!
# Limits of the machine and settings of a run

A payload of twelve bits reaches `addressSpace` words and a register field of three bits names
`registerLimit` registers. A `Config` holds the settings of a run. Its `with…` functions keep the
settings inside these limits; settings put together by hand may lie outside, and `usableCapacity`
and `usableRegisters` are what such settings amount to.
-/

namespace SecondPass

/-- The number of words that an address of twelve bits reaches. -/
def addressSpace : Nat := 4096

/-- The number of registers that a field of three bits names. -/
def registerLimit : Nat := 8

/-- The number of words between a first address and the end of the address space. -/
def roomAbove (firstAddress : Nat) : Nat := addressSpace - firstAddress

/-- What becomes of words that do not fit the memory image. -/
inductive OverflowPolicy where
  /-- They are dropped in silence. -/
  | truncate
  /-- They are dropped, and the program is reported as too large. -/
  | reject
  deriving DecidableEq, Repr

/-- The settings of a run. -/
structure Config where
  /-- The load address of the first word. -/
  firstAddress : Nat := 100
  /-- How many words the memory image holds. -/
  capacity : Nat := 3996
  /-- The length in bytes of the longest legal label. -/
  maxLabelLength : Nat := 31
  /-- How many registers the machine has. -/
  registerCount : Nat := registerLimit
  /-- What becomes of words that do not fit. -/
  overflow : OverflowPolicy := .truncate
  deriving DecidableEq, Repr

namespace Config

instance : Inhabited Config := ⟨{}⟩

/-- Moves the first address. A capacity that filled the room above the old address fills the room
above the new one; any other capacity is cut to that room. -/
def withFirstAddress (config : Config) (firstAddress : Nat) : Config :=
  { config with
    firstAddress := firstAddress
    capacity :=
      if config.capacity = roomAbove config.firstAddress then roomAbove firstAddress
      else min config.capacity (roomAbove firstAddress) }

/-- Sets the capacity, at most the room above the first address. -/
def withCapacity (config : Config) (capacity : Nat) : Config :=
  { config with capacity := min capacity (roomAbove config.firstAddress) }

/-- Sets the length of the longest legal label. -/
def withMaxLabelLength (config : Config) (maxLabelLength : Nat) : Config :=
  { config with maxLabelLength := maxLabelLength }

/-- Sets the number of registers, at most `registerLimit`. -/
def withRegisterCount (config : Config) (registerCount : Nat) : Config :=
  { config with registerCount := min registerCount registerLimit }

/-- Sets what becomes of words that do not fit. -/
def withOverflow (config : Config) (overflow : OverflowPolicy) : Config :=
  { config with overflow := overflow }

/-- The number of registers that can be encoded. -/
def usableRegisters (config : Config) : Nat := min config.registerCount registerLimit

/-- The number of words that can be addressed. -/
def usableCapacity (config : Config) : Nat :=
  min config.capacity (roomAbove config.firstAddress)

/-! ## The limits hold -/

theorem usableRegisters_le (config : Config) : config.usableRegisters ≤ registerLimit :=
  Nat.min_le_right _ _

end Config

end SecondPass
