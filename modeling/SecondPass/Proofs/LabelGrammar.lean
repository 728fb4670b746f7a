import SecondPass.Source.Name

/-!
# The grammar of labels

A label is an identifier, that is, a letter followed by letters and digits (`IsIdentifier`), which is
short enough and neither the name of a register nor a mnemonic (`IsLabel`). `checkLabel` accepts
exactly the labels. A name that is no label breaks one or more of seven rules (`LabelRule.Holds`),
each of which can be stated without the others; `checkLabel` goes through them in the order of
`LabelRule.all` and reports the first that is broken (`checkLabel_eq_checkRules`).

Lengths are in bytes while the other rules speak of characters. The byte after the first character
is the start of a character, so the rest of a name is a text again (`exists_cut_after_first`).
-/

namespace SecondPass

/-! ## Characters -/

/-- The letters of ASCII. -/
def IsLetter (c : Char) : Prop := ('A' ≤ c ∧ c ≤ 'Z') ∨ ('a' ≤ c ∧ c ≤ 'z')

/-- The digits of ASCII. -/
def IsDigit (c : Char) : Prop := '0' ≤ c ∧ c ≤ '9'

instance (c : Char) : Decidable (IsLetter c) := inferInstanceAs (Decidable (_ ∨ _))

instance (c : Char) : Decidable (IsDigit c) := inferInstanceAs (Decidable (_ ∧ _))

theorem isAlpha_iff {c : Char} : c.isAlpha = true ↔ IsLetter c := by
  have hupper : c.isUpper = true ↔ 'A' ≤ c ∧ c ≤ 'Z' := decide_eq_true_iff
  have hlower : c.isLower = true ↔ 'a' ≤ c ∧ c ≤ 'z' := by
    show (decide ('a' ≤ c) && decide (c ≤ 'z')) = true ↔ _
    rw [Bool.and_eq_true, decide_eq_true_iff, decide_eq_true_iff]
  show (c.isUpper || c.isLower) = true ↔ _
  rw [Bool.or_eq_true, hupper, hlower, IsLetter]

theorem isDigit_iff {c : Char} : c.isDigit = true ↔ IsDigit c := by
  simp [Char.isDigit, IsDigit, Char.le_def]

theorem isAlphanum_iff {c : Char} : c.isAlphanum = true ↔ IsLetter c ∨ IsDigit c := by
  rw [Char.isAlphanum, Bool.or_eq_true, isAlpha_iff, isDigit_iff]

/-- No letter is blank. -/
theorem isBlank_of_isLetter {c : Char} (h : IsLetter c) : Text.isBlank c = false := by
  have hrange : (65 ≤ c.toNat ∧ c.toNat ≤ 90) ∨ (97 ≤ c.toNat ∧ c.toNat ≤ 122) := by
    simpa [IsLetter, Char.le_def, UInt32.le_iff_toNat_le] using h
  have hnone : ∀ range ∈ Text.blankRanges, ¬ (range.1 ≤ c.toNat ∧ c.toNat ≤ range.2) := by
    simp only [Text.blankRanges, List.forall_mem_cons, List.not_mem_nil, false_implies,
      implies_true, and_true]
    omega
  rw [Text.isBlank, List.any_eq_false]
  intro range hrange
  rw [decide_eq_true_iff]
  exact hnone range hrange

/-- A digit is the digit of its value. -/
theorem digitChar_of_isDigit {c : Char} (h : IsDigit c) :
    (c.toNat - '0'.toNat).digitChar = c := by
  have hrange : 48 ≤ c.toNat ∧ c.toNat ≤ 57 := by
    simpa [IsDigit, Char.le_def, UInt32.le_iff_toNat_le] using h
  apply Char.toNat_inj.1
  show (c.toNat - 48).digitChar.toNat = c.toNat
  rw [Nat.toNat_digitChar_of_lt_ten (by omega)]
  omega

/-! ## Identifiers -/

/-- Identifiers: a letter, or an identifier with one more letter or digit. -/
inductive IsIdentifier : List Char → Prop where
  | letter {c : Char} (h : IsLetter c) : IsIdentifier [c]
  | extend {text : List Char} {c : Char} (h : IsIdentifier text) (hc : IsLetter c ∨ IsDigit c) :
    IsIdentifier (text ++ [c])

/-- An identifier starts with a letter, and letters and digits follow. -/
theorem IsIdentifier.exists_cons {text : List Char} (h : IsIdentifier text) :
    ∃ first body, text = first :: body ∧ IsLetter first ∧ ∀ c ∈ body, IsLetter c ∨ IsDigit c := by
  induction h with
  | @letter c h => exact ⟨c, [], rfl, h, by simp⟩
  | @extend text c _ hc ih =>
    obtain ⟨first, body, rfl, hfirst, hbody⟩ := ih
    refine ⟨first, body ++ [c], rfl, hfirst, ?_⟩
    intro d hd
    rcases List.mem_append.1 hd with hd | hd
    · exact hbody d hd
    · rw [List.mem_singleton.1 hd]
      exact hc

/-- Letters and digits can be put behind an identifier. -/
theorem IsIdentifier.append {text body : List Char} (h : IsIdentifier text)
    (hbody : ∀ c ∈ body, IsLetter c ∨ IsDigit c) : IsIdentifier (text ++ body) := by
  induction body generalizing text with
  | nil => rwa [List.append_nil]
  | cons c rest ih =>
    have hnext : IsIdentifier (text ++ [c]) := h.extend (hbody c List.mem_cons_self)
    have hrest := ih hnext fun d hd => hbody d (List.mem_cons_of_mem _ hd)
    rwa [List.append_assoc] at hrest

theorem isIdentifier_cons_iff {first : Char} {body : List Char} :
    IsIdentifier (first :: body) ↔ IsLetter first ∧ ∀ c ∈ body, IsLetter c ∨ IsDigit c := by
  constructor
  · intro h
    obtain ⟨first', body', heq, hfirst, hbody⟩ := h.exists_cons
    obtain ⟨rfl, rfl⟩ := List.cons.inj heq
    exact ⟨hfirst, hbody⟩
  · rintro ⟨hfirst, hbody⟩
    exact (IsIdentifier.letter hfirst).append hbody

/-! ## Names of registers and opcodes -/

/-- A text names a register exactly if it is the letter `r` and the digit of the register. -/
theorem registerOfName?_eq_some_iff {text : String} {count number : Nat} :
    registerOfName? text count = some number ↔
      number < min count registerLimit ∧ text.toList = ['r', number.digitChar] := by
  unfold registerOfName?
  constructor
  · intro h
    split at h
    · rename_i digit htext
      obtain ⟨⟨hdigit, hlt⟩, hnumber⟩ := Option.ite_none_right_eq_some.1 h
      obtain rfl := Option.some.inj hnumber
      exact ⟨hlt, by rw [htext, digitChar_of_isDigit (isDigit_iff.1 hdigit)]⟩
    · cases h
  · rintro ⟨hlt, htext⟩
    have hten : number < 10 := by
      rw [registerLimit] at hlt
      omega
    have hdigit : number.digitChar.isDigit = true := by simpa [Nat.isDigit_digitChar] using hten
    have hvalue : number.digitChar.toNat - '0'.toNat = number := by
      rw [Nat.toNat_digitChar_of_lt_ten hten]
      exact Nat.add_sub_cancel_left 48 number
    simp only [htext, hvalue]
    rw [if_pos ⟨hdigit, hlt⟩]

/-- A name is a mnemonic exactly if an opcode has it. -/
theorem isMnemonic_iff {name : String} :
    Opcode.isMnemonic name = true ↔ ∃ opcode : Opcode, name = opcode.mnemonic := by
  rw [Opcode.isMnemonic, Option.isSome_iff_exists]
  apply exists_congr
  intro opcode
  rw [Opcode.ofMnemonic?_eq_some_iff, eq_comm]

/-! ## Rules -/

/-- The rules for labels. -/
inductive LabelRule where
  | fits
  | nonempty
  | unindented
  | alphanumeric
  | letterInitial
  | notRegister
  | notMnemonic
  deriving DecidableEq, Repr

namespace LabelRule

/-- All rules, in the order in which they are checked. -/
def all : List LabelRule :=
  [fits, nonempty, unindented, alphanumeric, letterInitial, notRegister, notMnemonic]

/-- What a rule asks of a name. -/
def Holds (config : Config) (name : String) : LabelRule → Prop
  | fits => name.utf8ByteSize ≤ config.maxLabelLength
  | nonempty => name.toList ≠ []
  | unindented => ∀ first ∈ name.toList.head?, Text.isBlank first = false
  | alphanumeric => ∀ c ∈ name.toList.tail, IsLetter c ∨ IsDigit c
  | letterInitial => ∀ first ∈ name.toList.head?, IsLetter first
  | notRegister => ∀ number < min config.registerCount registerLimit,
    name.toList ≠ ['r', number.digitChar]
  | notMnemonic => ∀ opcode ∈ Opcode.all, name ≠ opcode.mnemonic

instance (config : Config) (name : String) : (rule : LabelRule) →
    Decidable (rule.Holds config name)
  | fits => inferInstanceAs (Decidable (_ ≤ _))
  | nonempty => inferInstanceAs (Decidable (_ ≠ _))
  | unindented => inferInstanceAs (Decidable (∀ first ∈ name.toList.head?, _))
  | alphanumeric => inferInstanceAs (Decidable (∀ c ∈ name.toList.tail, _))
  | letterInitial => inferInstanceAs (Decidable (∀ first ∈ name.toList.head?, _))
  | notRegister =>
    inferInstanceAs (Decidable (∀ number < min config.registerCount registerLimit, _))
  | notMnemonic => inferInstanceAs (Decidable (∀ opcode ∈ Opcode.all, _))

/-- How a broken rule is reported. -/
def error (config : Config) (name : String) : LabelRule → LabelError
  | fits => .tooLong config.maxLabelLength
  | nonempty => .empty
  | unindented => .leadingBlank
  | alphanumeric => .notAlphanumeric name
  | letterInitial => .notLetterInitial name
  | notRegister => .registerName name
  | notMnemonic => .mnemonicName name

/-- A rule is the first that a name breaks when the name keeps all rules checked before it. -/
def IsFirstBroken (config : Config) (name : String) (rule : LabelRule) : Prop :=
  ∃ before after, all = before ++ rule :: after ∧
    (∀ earlier ∈ before, earlier.Holds config name) ∧ ¬ rule.Holds config name

end LabelRule

/-- Checks rules one after the other and stops at the first that is broken. -/
def checkRules (config : Config) (name : String) : List LabelRule → Except LabelError Unit
  | [] => .ok ()
  | rule :: rest =>
    if rule.Holds config name then checkRules config name rest
    else .error (rule.error config name)

theorem checkRules_eq_ok_iff {config : Config} {name : String} {rules : List LabelRule} :
    checkRules config name rules = .ok () ↔ ∀ rule ∈ rules, rule.Holds config name := by
  induction rules with
  | nil => simp [checkRules]
  | cons rule rest ih =>
    rw [checkRules, List.forall_mem_cons]
    by_cases h : rule.Holds config name
    · rw [if_pos h, ih]
      simp [h]
    · simp [h]

theorem checkRules_eq_error_iff {config : Config} {name : String} {rules : List LabelRule}
    {error : LabelError} :
    checkRules config name rules = .error error ↔
      ∃ before rule after, rules = before ++ rule :: after ∧
        (∀ earlier ∈ before, earlier.Holds config name) ∧ ¬ rule.Holds config name ∧
        rule.error config name = error := by
  induction rules with
  | nil => simp [checkRules]
  | cons first rest ih =>
    rw [checkRules]
    by_cases h : first.Holds config name
    · rw [if_pos h, ih]
      constructor
      · rintro ⟨before, rule, after, rfl, hbefore, hrule⟩
        exact ⟨first :: before, rule, after, rfl, List.forall_mem_cons.2 ⟨h, hbefore⟩, hrule⟩
      · rintro ⟨before, rule, after, hrules, hbefore, hbroken, herror⟩
        cases before with
        | nil =>
          obtain ⟨rfl, -⟩ := List.cons.inj hrules
          exact absurd h hbroken
        | cons other before =>
          obtain ⟨-, rfl⟩ := List.cons.inj hrules
          exact ⟨before, rule, after, rfl, (List.forall_mem_cons.1 hbefore).2, hbroken, herror⟩
    · rw [if_neg h]
      constructor
      · intro herror
        exact ⟨[], first, rest, rfl, by simp, h, Except.error.inj herror⟩
      · rintro ⟨before, rule, after, hrules, hbefore, hbroken, herror⟩
        cases before with
        | nil =>
          obtain ⟨rfl, -⟩ := List.cons.inj hrules
          rw [herror]
        | cons other before =>
          obtain ⟨rfl, -⟩ := List.cons.inj hrules
          exact absurd (List.forall_mem_cons.1 hbefore).1 h

/-! ## The check goes through the rules -/

section Check

variable {config : Config} {name : String} {first : Char} {body : List Char}

theorem holds_unindented_iff (h : name.toList = first :: body) :
    LabelRule.unindented.Holds config name ↔ Text.isBlank first = false := by
  simp [LabelRule.Holds, h]

theorem holds_alphanumeric_iff (h : name.toList = first :: body) :
    LabelRule.alphanumeric.Holds config name ↔ body.all Char.isAlphanum = true := by
  simp [LabelRule.Holds, h, isAlphanum_iff]

theorem holds_letterInitial_iff (h : name.toList = first :: body) :
    LabelRule.letterInitial.Holds config name ↔ first.isAlpha = true := by
  simp [LabelRule.Holds, h, isAlpha_iff]

theorem holds_notRegister_iff :
    LabelRule.notRegister.Holds config name ↔
      (registerOfName? name config.usableRegisters).isSome = false := by
  have hlimit : min config.usableRegisters registerLimit =
      min config.registerCount registerLimit := by
    rw [Config.usableRegisters]
    omega
  rw [Option.isSome_eq_false_iff, Option.isNone_iff_eq_none, Option.eq_none_iff_forall_ne_some]
  simp only [LabelRule.Holds, ne_eq, registerOfName?_eq_some_iff, hlimit, not_and]

theorem holds_notMnemonic_iff :
    LabelRule.notMnemonic.Holds config name ↔ Opcode.isMnemonic name = false := by
  rw [← Bool.not_eq_true, isMnemonic_iff]
  simp [LabelRule.Holds, Opcode.mem_all]

end Check

/-- Checking a name is going through the rules in their order. -/
theorem checkLabel_eq_checkRules (name : String) (config : Config) :
    checkLabel name config = checkRules config name LabelRule.all := by
  rw [checkLabel]
  simp only [LabelRule.all, checkRules]
  by_cases hfits : LabelRule.fits.Holds config name
  · rw [if_pos hfits, if_neg (Nat.not_lt.2 hfits)]
    cases hchars : name.toList with
    | nil => simp [LabelRule.Holds, LabelRule.error, hchars]
    | cons first body =>
      have hnonempty : LabelRule.nonempty.Holds config name := by simp [LabelRule.Holds, hchars]
      simp only [if_pos hnonempty, holds_unindented_iff hchars, holds_alphanumeric_iff hchars,
        holds_letterInitial_iff hchars, holds_notRegister_iff, holds_notMnemonic_iff]
      -- both sides are now chains of the same five tests
      cases Text.isBlank first <;> cases body.all Char.isAlphanum <;> cases first.isAlpha <;>
        cases (registerOfName? name config.usableRegisters).isSome <;>
        cases Opcode.isMnemonic name <;> rfl
  · rw [if_neg hfits, if_pos (Nat.not_le.1 hfits)]
    rfl

/-! ## Labels -/

/-- A name is a label under settings when it is an identifier of a legal length that names neither a
register nor an opcode. -/
structure IsLabel (config : Config) (name : String) : Prop where
  identifier : IsIdentifier name.toList
  length_le : name.utf8ByteSize ≤ config.maxLabelLength
  not_register : ∀ number < min config.registerCount registerLimit,
    name.toList ≠ ['r', number.digitChar]
  not_mnemonic : ∀ opcode : Opcode, name ≠ opcode.mnemonic

/-- Labels are the names that keep all rules. -/
theorem isLabel_iff_forall_holds {config : Config} {name : String} :
    IsLabel config name ↔ ∀ rule ∈ LabelRule.all, rule.Holds config name := by
  simp only [LabelRule.all, List.forall_mem_cons, List.not_mem_nil, false_implies, implies_true,
    and_true]
  constructor
  · intro h
    obtain ⟨first, body, hchars, hfirst, hbody⟩ := h.identifier.exists_cons
    refine ⟨h.length_le, ?_, ?_, ?_, ?_, h.not_register, fun opcode _ => h.not_mnemonic opcode⟩
    · simp [LabelRule.Holds, hchars]
    -- that the first character is not blank follows from its being a letter
    · rw [holds_unindented_iff hchars]
      exact isBlank_of_isLetter hfirst
    · simpa [LabelRule.Holds, hchars] using hbody
    · simpa [LabelRule.Holds, hchars] using hfirst
  · rintro ⟨hfits, hnonempty, -, hbody, hfirst, hregister, hmnemonic⟩
    refine ⟨?_, hfits, hregister, fun opcode => hmnemonic opcode opcode.mem_all⟩
    obtain ⟨first, body, hchars⟩ := List.exists_cons_of_ne_nil hnonempty
    rw [hchars, isIdentifier_cons_iff]
    simp only [LabelRule.Holds, hchars] at hbody hfirst
    exact ⟨hfirst first rfl, hbody⟩

/-- The check of labels accepts the labels. -/
theorem checkLabel_eq_ok_iff {name : String} {config : Config} :
    checkLabel name config = .ok () ↔ IsLabel config name := by
  rw [checkLabel_eq_checkRules, checkRules_eq_ok_iff, isLabel_iff_forall_holds]

/-- The first character of a name ends where a character starts, and what follows is the text of the
other characters. -/
theorem exists_cut_after_first {name : String} {first : Char} {body : List Char}
    (h : name.toList = first :: body) :
    ∃ cut : name.Pos, cut.offset.byteIdx = first.utf8Size ∧
      (name.sliceFrom cut).copy = String.ofList body := by
  have hname : name = String.singleton first ++ String.ofList body := by
    rw [← String.ofList_cons, ← h, String.ofList_toList]
  have hvalid : (String.singleton first).rawEndPos.IsValid name :=
    String.Pos.Raw.isValid_iff_exists_append.2 ⟨_, _, hname, rfl⟩
  refine ⟨⟨_, hvalid⟩, ?_, ?_⟩
  · simp
  · exact String.copy_sliceFrom_eq_iff_exists_splits.2 ⟨_, hname, rfl⟩

/-- **The check of labels.** A name is accepted if and only if it is a label; otherwise the error is
that of the first rule that the name breaks. The rest of the name, whose characters the fourth rule
is about, starts at the byte after the first character, and that byte starts a character. -/
theorem checkLabel_reports_first_broken (name : String) (config : Config) :
    (checkLabel name config = .ok () ↔ IsLabel config name) ∧
      (∀ error, checkLabel name config = .error error ↔
        ∃ rule : LabelRule, rule.IsFirstBroken config name ∧ rule.error config name = error) ∧
      (∀ first body, name.toList = first :: body → ∃ cut : name.Pos,
        cut.offset.byteIdx = first.utf8Size ∧ (name.sliceFrom cut).copy = String.ofList body) := by
  refine ⟨?_, ?_, ?_⟩
  · rw [checkLabel_eq_checkRules, checkRules_eq_ok_iff, isLabel_iff_forall_holds]
  · intro error
    rw [checkLabel_eq_checkRules, checkRules_eq_error_iff]
    constructor
    · rintro ⟨before, rule, after, hall, hbefore, hbroken, herror⟩
      exact ⟨rule, ⟨before, after, hall, hbefore, hbroken⟩, herror⟩
    · rintro ⟨rule, ⟨before, after, hall, hbefore, hbroken⟩, herror⟩
      exact ⟨before, rule, after, hall, hbefore, hbroken, herror⟩
  · intro first body h
    exact exists_cut_after_first h

/-- Neither accented letter is one of ASCII, so the name breaks two rules and the earlier one is
reported. With the first letter two bytes go. -/
theorem checkLabel_reports_first_broken_accented :
    "été".toList = 'é' :: ['t', 'é'] ∧
      (∃ rule : LabelRule, rule.IsFirstBroken {} "été" ∧
        rule.error {} "été" = .notAlphanumeric "été") ∧
      (∃ cut : "été".Pos, cut.offset.byteIdx = 2 ∧ ("été".sliceFrom cut).copy = "té") ∧
      ¬ IsLabel {} "r7" ∧ IsLabel {} "r8" := by
  obtain ⟨-, herror, hcut⟩ := checkLabel_reports_first_broken "été" {}
  refine ⟨rfl, (herror _).1 rfl, hcut 'é' ['t', 'é'] rfl, ?_, ?_⟩
  · have hregister : checkLabel "r7" {} = .error (.registerName "r7") := rfl
    rw [← (checkLabel_reports_first_broken "r7" {}).1, hregister]
    simp
  · exact (checkLabel_reports_first_broken "r8" {}).1.1 rfl

end SecondPass
