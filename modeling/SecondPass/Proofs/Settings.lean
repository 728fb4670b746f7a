import SecondPass.Machine.Config

/-!
# Moves of the first address

Settings do not remember how they came about. A move of the first address looks at the present
numbers alone: a capacity that fills the room above the old address fills the room above the new
one, and a smaller capacity is cut to that room. So a limit on the image survives as long as every
address leaves more room than the limit. An address that leaves less cuts the capacity to all the
room there is, and from then on it follows the address (`moveTo_of_fills`), also back to where there
is more room than the limit allowed.
-/

namespace SecondPass

namespace Config

/-- The settings after the first address was moved to one address after the other. -/
def moveTo (config : Config) (addresses : List Nat) : Config :=
  addresses.foldl withFirstAddress config

theorem moveTo_cons (config : Config) (address : Nat) (rest : List Nat) :
    config.moveTo (address :: rest) = (config.withFirstAddress address).moveTo rest := rfl

/-! ## One move -/

variable {config : Config}

/-- A capacity that fills the room follows the address. -/
theorem withFirstAddress_of_fills (h : config.capacity = roomAbove config.firstAddress)
    (address : Nat) :
    config.withFirstAddress address =
      { config with firstAddress := address, capacity := roomAbove address } := by
  rw [withFirstAddress, if_pos h]

/-- A smaller capacity stays if there is more room than that above the new address. -/
theorem withFirstAddress_of_lt (h : config.capacity < roomAbove config.firstAddress)
    {address : Nat} (haddress : config.capacity < roomAbove address) :
    config.withFirstAddress address = { config with firstAddress := address } := by
  rw [withFirstAddress, if_neg (Nat.ne_of_lt h), Nat.min_eq_left (Nat.le_of_lt haddress)]

/-- Otherwise it is cut, and then it fills the room above the new address. -/
theorem withFirstAddress_of_le (h : config.capacity < roomAbove config.firstAddress)
    {address : Nat} (haddress : roomAbove address ≤ config.capacity) :
    config.withFirstAddress address =
      { config with firstAddress := address, capacity := roomAbove address } := by
  rw [withFirstAddress, if_neg (Nat.ne_of_lt h), Nat.min_eq_right haddress]

/-! ## Any number of moves -/

theorem moveTo_of_fills (h : config.capacity = roomAbove config.firstAddress)
    (addresses : List Nat) :
    config.moveTo addresses =
      { config with
        firstAddress := addresses.getLastD config.firstAddress
        capacity := roomAbove (addresses.getLastD config.firstAddress) } := by
  induction addresses generalizing config with
  | nil => rw [List.getLastD_nil, ← h]; rfl
  | cons address rest ih =>
    rw [moveTo_cons, withFirstAddress_of_fills h, ih rfl, List.getLastD_cons]

/-- A limited capacity stays until an address leaves no more room than the limit; from there on it
is the room above the address. -/
theorem moveTo_of_lt (h : config.capacity < roomAbove config.firstAddress)
    (addresses : List Nat) :
    config.moveTo addresses =
      { config with
        firstAddress := addresses.getLastD config.firstAddress
        capacity :=
          if ∀ address ∈ addresses, config.capacity < roomAbove address then config.capacity
          else roomAbove (addresses.getLastD config.firstAddress) } := by
  induction addresses generalizing config with
  | nil => rw [if_pos (by simp)]; rfl
  | cons address rest ih =>
    simp only [moveTo_cons, List.getLastD_cons, List.forall_mem_cons]
    by_cases haddress : config.capacity < roomAbove address
    · -- the limit is still there, for the rest of the moves to keep or to lose
      rw [withFirstAddress_of_lt h haddress, ih haddress]
      simp only [haddress, true_and]
    · rw [withFirstAddress_of_le h (Nat.not_lt.1 haddress), moveTo_of_fills rfl]
      simp only [haddress, false_and, if_false]

/-- **A limited image under moves.** Take settings whose capacity leaves some of the room above the
first address unused, and move the first address any number of times. The capacity stays as it is if
every address leaves more room than that, and otherwise it is all the room above the last address;
nothing else changes. So the moves have not enlarged the image if and only if no address lay so high
that it took the limit away, or the last one still does not leave more room. -/
theorem capacity_moveTo_le_iff (config : Config) (addresses : List Nat)
    (h : config.capacity < roomAbove config.firstAddress) :
    config.moveTo addresses =
        { config with
          firstAddress := addresses.getLastD config.firstAddress
          capacity :=
            if ∀ address ∈ addresses, config.capacity < roomAbove address then config.capacity
            else roomAbove (addresses.getLastD config.firstAddress) } ∧
      ((config.moveTo addresses).capacity ≤ config.capacity ↔
        (∀ address ∈ addresses, config.capacity < roomAbove address) ∨
          roomAbove (addresses.getLastD config.firstAddress) ≤ config.capacity) := by
  refine ⟨moveTo_of_lt h addresses, ?_⟩
  simp only [moveTo_of_lt h addresses]
  by_cases hroom : ∀ address ∈ addresses, config.capacity < roomAbove address
  · rw [if_pos hroom]
    exact iff_of_true (Nat.le_refl _) (Or.inl hroom)
  · rw [if_neg hroom]
    exact ⟨Or.inr, fun hlast => hlast.resolve_left hroom⟩

/-- Five hundred words stay five hundred on the way over 1000 to 200, and are cut to 296 by a last
move to 3800. -/
theorem capacity_moveTo_le_iff_fiveHundred :
    let config := ({} : Config).withCapacity 500
    config.capacity < roomAbove config.firstAddress ∧
      (config.moveTo [1000, 200]).capacity ≤ config.capacity ∧
      (config.moveTo [1000, 200, 3800]).capacity ≤ config.capacity := by
  intro config
  have hlimited : config.capacity < roomAbove config.firstAddress := by decide
  refine ⟨hlimited, ?_, ?_⟩
  · rw [(capacity_moveTo_le_iff config [1000, 200] hlimited).2]
    decide
  · rw [(capacity_moveTo_le_iff config [1000, 200, 3800] hlimited).2]
    decide

/-- A move to 3800 and back to 200 makes an image of five hundred words larger than it was. -/
theorem capacity_moveTo_exceeds_limit :
    let config := ({} : Config).withCapacity 500
    config.capacity < roomAbove config.firstAddress ∧
      ¬ (config.moveTo [3800, 200]).capacity ≤ config.capacity := by
  decide

end Config

end SecondPass
