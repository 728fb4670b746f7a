import SecondPass.Image
import SecondPass.Proofs.Settings

/-!
# Settings made by builders

A `Setting` is one call of a builder, and `Config.build` makes such calls one after the other.
Settings are within the limits (`IsWithinLimits`) when the image fits the room above the first
address and a register field names every register; these are the settings that the clamps
`usableCapacity` and `usableRegisters` leave alone (`isWithinLimits_iff`). A builder keeps the
limits, and the two builders that touch the image bring it back into its room whatever the settings
were before. Settings within the limits are all that can be built from the default ones, and every
one of them can be built (`exists_build_eq_iff`).
-/

namespace SecondPass

/-- One call of a builder. -/
inductive Setting where
  | firstAddress (address : Nat)
  | capacity (words : Nat)
  | maxLabelLength (bytes : Nat)
  | registerCount (count : Nat)
  | overflow (policy : OverflowPolicy)
  deriving DecidableEq, Repr

namespace Config

/-- The settings after one call of a builder. -/
def set (config : Config) : Setting → Config
  | .firstAddress address => config.withFirstAddress address
  | .capacity words => config.withCapacity words
  | .maxLabelLength bytes => config.withMaxLabelLength bytes
  | .registerCount count => config.withRegisterCount count
  | .overflow policy => config.withOverflow policy

/-- The settings after any number of calls, one after the other. -/
def build (config : Config) (settings : List Setting) : Config := settings.foldl set config

theorem build_cons (config : Config) (setting : Setting) (rest : List Setting) :
    config.build (setting :: rest) = (config.set setting).build rest := rfl

/-! ## The limits -/

/-- Settings that ask for no more than the machine has. -/
structure IsWithinLimits (config : Config) : Prop where
  capacity_le : config.capacity ≤ roomAbove config.firstAddress
  registerCount_le : config.registerCount ≤ registerLimit

/-- The clamps change nothing exactly if the settings are within the limits. -/
theorem isWithinLimits_iff {config : Config} :
    config.IsWithinLimits ↔
      config.usableCapacity = config.capacity ∧ config.usableRegisters = config.registerCount := by
  constructor
  · intro h
    exact ⟨Nat.min_eq_left h.capacity_le, Nat.min_eq_left h.registerCount_le⟩
  · rintro ⟨hcapacity, hregisters⟩
    constructor
    · rw [← hcapacity]
      exact Nat.min_le_right _ _
    · rw [← hregisters]
      exact config.usableRegisters_le

theorem isWithinLimits_default : ({} : Config).IsWithinLimits := ⟨by decide, by decide⟩

/-! ## One call -/

/-- A move of the first address leaves an image that fits above it, whether or not it fitted
before. -/
theorem capacity_withFirstAddress_le (config : Config) (address : Nat) :
    (config.withFirstAddress address).capacity ≤ roomAbove address := by
  rw [withFirstAddress]
  by_cases hfills : config.capacity = roomAbove config.firstAddress
  · exact Nat.le_of_eq (if_pos hfills)
  · rw [if_neg hfills]
    exact Nat.min_le_right _ _

/-- So does a new capacity. -/
theorem capacity_withCapacity_le (config : Config) (words : Nat) :
    (config.withCapacity words).capacity ≤ roomAbove config.firstAddress :=
  Nat.min_le_right _ _

/-- A second move to the same address finds an image that fills the room or is smaller, and neither
has to change. -/
theorem withFirstAddress_withFirstAddress (config : Config) (address : Nat) :
    (config.withFirstAddress address).withFirstAddress address =
      config.withFirstAddress address := by
  have hroom := config.capacity_withFirstAddress_le address
  rcases Nat.lt_or_eq_of_le hroom with hlt | heq
  · exact withFirstAddress_of_lt hlt hlt
  · rw [withFirstAddress_of_fills heq, ← heq]
    rfl

theorem IsWithinLimits.set {config : Config} (h : config.IsWithinLimits) (setting : Setting) :
    (config.set setting).IsWithinLimits := by
  cases setting with
  | firstAddress address =>
    exact ⟨config.capacity_withFirstAddress_le address, h.registerCount_le⟩
  | capacity words => exact ⟨config.capacity_withCapacity_le words, h.registerCount_le⟩
  | maxLabelLength bytes => exact ⟨h.capacity_le, h.registerCount_le⟩
  | registerCount count => exact ⟨h.capacity_le, Nat.min_le_right _ _⟩
  | overflow policy => exact ⟨h.capacity_le, h.registerCount_le⟩

/-! ## Any number of calls -/

theorem IsWithinLimits.build {config : Config} (h : config.IsWithinLimits)
    (settings : List Setting) : (config.build settings).IsWithinLimits := by
  induction settings generalizing config with
  | nil => exact h
  | cons setting rest ih =>
    rw [build_cons]
    exact ih (h.set setting)

/-- The calls that build settings from any others: the first address goes before the capacity, which
is cut to the room above it. -/
def settings (config : Config) : List Setting :=
  [.firstAddress config.firstAddress, .capacity config.capacity,
    .maxLabelLength config.maxLabelLength, .registerCount config.registerCount,
    .overflow config.overflow]

theorem IsWithinLimits.build_settings {config : Config} (h : config.IsWithinLimits)
    (start : Config) : start.build config.settings = config := by
  show ({ config with
    capacity := min config.capacity (roomAbove config.firstAddress)
    registerCount := min config.registerCount registerLimit } : Config) = config
  rw [Nat.min_eq_left h.capacity_le, Nat.min_eq_left h.registerCount_le]

/-- What can be built from the default settings is what lies within the limits. -/
theorem exists_build_eq_iff {config : Config} :
    (∃ settings, ({} : Config).build settings = config) ↔ config.IsWithinLimits := by
  constructor
  · rintro ⟨settings, rfl⟩
    exact isWithinLimits_default.build settings
  · intro h
    exact ⟨config.settings, h.build_settings {}⟩

/-- **Builders and clamps.** Settings can be built from the default ones if and only if they are
within the limits, so an image made from built settings has the capacity and the registers that the
settings name. Whatever the settings were before, a new first address or a new capacity makes the
image fit the room above the first address. Moving the first address to the same place twice is
moving it once, and the capacity may be set before or after the register count, the label length and
the policy. -/
theorem builders_keep_limits :
    (∀ settings : List Setting,
      let config := ({} : Config).build settings
      config.capacity ≤ roomAbove config.firstAddress ∧ config.registerCount ≤ 8 ∧
        config.usableCapacity = config.capacity ∧
        config.usableRegisters = config.registerCount ∧
        (Image.new config).capacity = config.capacity) ∧
      (∀ config : Config,
        (∃ settings, ({} : Config).build settings = config) ↔ config.IsWithinLimits) ∧
      ∀ config : Config,
        (∀ address, (config.withFirstAddress address).capacity ≤
          roomAbove (config.withFirstAddress address).firstAddress) ∧
        (∀ words, (config.withCapacity words).capacity ≤
          roomAbove (config.withCapacity words).firstAddress) ∧
        (∀ address, (config.withFirstAddress address).withFirstAddress address =
          config.withFirstAddress address) ∧
        (∀ words count, (config.withCapacity words).withRegisterCount count =
          (config.withRegisterCount count).withCapacity words) ∧
        (∀ words bytes, (config.withCapacity words).withMaxLabelLength bytes =
          (config.withMaxLabelLength bytes).withCapacity words) ∧
        ∀ words policy, (config.withCapacity words).withOverflow policy =
          (config.withOverflow policy).withCapacity words := by
  refine ⟨?_, fun config => exists_build_eq_iff, ?_⟩
  · intro settings config
    have hlimits : config.IsWithinLimits := isWithinLimits_default.build settings
    obtain ⟨hcapacity, hregisters⟩ := isWithinLimits_iff.1 hlimits
    exact ⟨hlimits.capacity_le, hlimits.registerCount_le, hcapacity, hregisters, hcapacity⟩
  · intro config
    refine ⟨config.capacity_withFirstAddress_le, config.capacity_withCapacity_le,
      config.withFirstAddress_withFirstAddress, ?_, ?_, ?_⟩
    -- none of these three reads or writes the first address or the capacity
    · intro words count
      rfl
    · intro words bytes
      rfl
    · intro words policy
      rfl

end Config

end SecondPass
