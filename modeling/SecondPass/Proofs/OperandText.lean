import SecondPass.Proofs.Presets
import SecondPass.Proofs.Registers

/-!
# The text of operands

Operands of five kinds are written into one space of texts. Under given settings the text of a well
formed operand still says which operand it is, up to the address that its label resolved to:
`Operand.ofText` reads it back (`ofText_text`). The kinds are told apart by their characters: only a
number starts with `#`, only an indexed label has a bracket, since a label is made of letters and
digits, and no label is the name of a register that the settings have.
-/

namespace SecondPass

/-! ## Numbers -/

/-- The number that decimal digits stand for, with a minus sign before them or without. -/
def intOfDigits : List Char → Int
  | '-' :: digits => -(Nat.ofDigitChars 10 digits 0 : Int)
  | digits => (Nat.ofDigitChars 10 digits 0 : Int)

theorem intOfDigits_toDigits (n : Nat) : intOfDigits (Nat.toDigits 10 n) = n := by
  cases hdigits : Nat.toDigits 10 n with
  | nil => exact absurd hdigits Nat.toDigits_ne_nil
  | cons first rest =>
    -- no digit is a minus sign, so the second equation applies
    have hfirst : first ≠ '-' := by
      rintro rfl
      have hdigit : '-'.isDigit = true :=
        Nat.isDigit_of_mem_toDigits (by decide) (by decide) (hdigits ▸ List.mem_cons_self)
      exact absurd hdigit (by decide)
    have hvalue : Nat.ofDigitChars 10 (first :: rest) 0 = n := by
      rw [← hdigits, Nat.ofDigitChars_ten_toDigits]
    rw [intOfDigits]
    · rw [hvalue]
    · exact fun _ h => hfirst (List.cons.inj h).1

/-- Reading the digits of a number gives the number. -/
theorem intOfDigits_toString (n : Int) : intOfDigits (toString n).toList = n := by
  cases n with
  | ofNat m =>
    show intOfDigits (toString m).toList = m
    rw [Nat.toString_eq_repr, Nat.toList_repr, intOfDigits_toDigits]
  | negSucc m =>
    show intOfDigits ("-" ++ toString (m + 1)).toList = Int.negSucc m
    rw [String.toList_append, Nat.toString_eq_repr, Nat.toList_repr]
    show -(Nat.ofDigitChars 10 (Nat.toDigits 10 (m + 1)) 0 : Int) = Int.negSucc m
    rw [Nat.ofDigitChars_ten_toDigits]
    rfl

/-! ## Reading an operand -/

namespace Operand

/-- The label, indexed or not, that characters spell. What follows a bracket is the index, and the
last character closes the bracket. -/
def ofLabelText (chars : List Char) : Operand :=
  let name := String.ofList (chars.takeWhile (· != '['))
  match chars.dropWhile (· != '[') with
  | [] => .direct ⟨name, none⟩
  | _ :: index => .indexed ⟨name, none⟩ (Int32.ofInt (intOfDigits index.dropLast))

/-- The operand that a text stands for under settings. -/
def ofText (config : Config) (text : String) : Operand :=
  match text.toList with
  | [] => .absent
  | '#' :: digits => .immediate (Int32.ofInt (intOfDigits digits))
  | chars =>
    match registerOfName? text config.usableRegisters with
    | some number => .register number
    | none => ofLabelText chars

/-- What settings ask of an operand: the name of a label is legal, and the machine has the register.
A number and a missing operand are always well formed. -/
def IsWellFormed (config : Config) : Operand → Prop
  | absent => True
  | immediate _ => True
  | direct label => checkLabel label.name config = .ok ()
  | indexed label _ => checkLabel label.name config = .ok ()
  | register number => number < config.usableRegisters

end Operand

/-! ## Labels, brackets and registers -/

theorem IsIdentifier.isLetter_or_isDigit {text : List Char} (h : IsIdentifier text) :
    ∀ c ∈ text, IsLetter c ∨ IsDigit c := by
  obtain ⟨first, body, rfl, hfirst, hbody⟩ := h.exists_cons
  exact List.forall_mem_cons.2 ⟨Or.inl hfirst, hbody⟩

theorem IsIdentifier.ne_bracket {text : List Char} (h : IsIdentifier text) :
    ∀ c ∈ text, (c != '[') = true := by
  intro c hc
  rw [bne_iff_ne]
  rintro rfl
  exact absurd (h.isLetter_or_isDigit '[' hc) (by decide)

/-- A label names no register. -/
theorem registerOfName?_of_isLabel {config : Config} {name : String} (h : IsLabel config name) :
    registerOfName? name config.usableRegisters = none := by
  have hnone : (registerOfName? name config.usableRegisters).isSome = false :=
    holds_notRegister_iff.1 h.not_register
  rwa [Option.isSome_eq_false_iff, Option.isNone_iff_eq_none] at hnone

/-- The name of a register has two characters. -/
theorem registerOfName?_of_length_ne {text : String} {count : Nat} (h : text.toList.length ≠ 2) :
    registerOfName? text count = none := by
  rw [Option.eq_none_iff_forall_ne_some]
  intro number hnumber
  rw [(registerOfName?_eq_some_iff.1 hnumber).2] at h
  exact h rfl

namespace Operand

theorem ofLabelText_of_isIdentifier {name : List Char} (h : IsIdentifier name) :
    ofLabelText (name ++ []) = .direct ⟨String.ofList name, none⟩ := by
  have htake : (name ++ []).takeWhile (· != '[') = name := by
    rw [List.takeWhile_append_of_pos h.ne_bracket]
    exact List.append_nil name
  have hdrop : (name ++ []).dropWhile (· != '[') = [] := by
    rw [List.dropWhile_append_of_pos h.ne_bracket]
    rfl
  simp only [ofLabelText, htake, hdrop]

theorem ofLabelText_append {name : List Char} (h : IsIdentifier name) (index : List Char) :
    ofLabelText (name ++ '[' :: (index ++ [']'])) =
      .indexed ⟨String.ofList name, none⟩ (Int32.ofInt (intOfDigits index)) := by
  have htake : (name ++ '[' :: (index ++ [']'])).takeWhile (· != '[') = name := by
    rw [List.takeWhile_append_of_pos h.ne_bracket]
    simp
  have hdrop : (name ++ '[' :: (index ++ [']'])).dropWhile (· != '[') =
      '[' :: (index ++ [']']) := by
    rw [List.dropWhile_append_of_pos h.ne_bracket]
    simp
  simp only [ofLabelText, htake, hdrop, List.dropLast_concat]

/-- A text that starts as an identifier and names no register is read as a label. -/
theorem ofText_of_isIdentifier {config : Config} {text : String} {name rest : List Char}
    (htext : text.toList = name ++ rest) (hname : IsIdentifier name)
    (hregister : registerOfName? text config.usableRegisters = none) :
    ofText config text = ofLabelText (name ++ rest) := by
  obtain ⟨first, body, rfl, hfirst, -⟩ := hname.exists_cons
  have hhash : first ≠ '#' := by
    rintro rfl
    exact absurd hfirst (by decide)
  rw [ofText, htext, List.cons_append]
  split
  · contradiction
  · rename_i heq
    exact absurd (List.cons.inj heq).1 hhash
  · rw [hregister]

/-- A text that names a register is read as the register. -/
theorem ofText_of_register {config : Config} {text : String} {number : Nat}
    (h : registerOfName? text config.usableRegisters = some number) :
    ofText config text = .register number := by
  have hchars : text.toList = ['r', number.digitChar] := (registerOfName?_eq_some_iff.1 h).2
  rw [ofText, hchars, h]
  rfl

/-! ## Reading back -/

variable {config : Config}

theorem toList_text_indexed (label : LabelRef) (index : Int32) :
    (indexed label index).text.toList =
      label.name.toList ++ '[' :: ((toString index.toInt).toList ++ [']']) := by
  simp [text]

/-- Reading the text of a well formed operand gives the operand, its label bare. -/
theorem ofText_text {operand : Operand} (h : operand.IsWellFormed config) :
    ofText config operand.text = operand.bare := by
  cases operand with
  | absent => rfl
  | immediate value =>
    have htext : (immediate value).text.toList = '#' :: (toString value.toInt).toList := by
      simp [text]
    simp only [ofText, htext, intOfDigits_toString, Int32.ofInt_toInt, bare]
  | direct label =>
    have hlabel : IsLabel config label.name := checkLabel_eq_ok_iff.1 h
    have htext : (direct label).text.toList = label.name.toList ++ [] :=
      (List.append_nil _).symm
    rw [ofText_of_isIdentifier htext hlabel.identifier (registerOfName?_of_isLabel hlabel),
      ofLabelText_of_isIdentifier hlabel.identifier, String.ofList_toList]
    rfl
  | indexed label index =>
    have hlabel : IsLabel config label.name := checkLabel_eq_ok_iff.1 h
    have htext := toList_text_indexed label index
    have hregister : registerOfName? (indexed label index).text config.usableRegisters = none := by
      -- a name, both brackets and a digit are more than two characters
      apply registerOfName?_of_length_ne
      obtain ⟨first, body, hname, -⟩ := hlabel.identifier.exists_cons
      rw [htext, hname]
      simp only [List.length_append, List.length_cons, List.length_nil]
      omega
    rw [ofText_of_isIdentifier htext hlabel.identifier hregister,
      ofLabelText_append hlabel.identifier, intOfDigits_toString, Int32.ofInt_toInt,
      String.ofList_toList]
    rfl
  | register number =>
    have hlimit : number < min config.usableRegisters registerLimit := by
      have hlt : number < config.usableRegisters := h
      have hle := config.usableRegisters_le
      omega
    exact ofText_of_register (registerOfName?_eq_some_iff_text.2 ⟨rfl, hlimit⟩)

@[simp] theorem text_bare (operand : Operand) : operand.bare.text = operand.text := by
  cases operand <;> rfl

end Operand

/-- **Operand text is unambiguous.** Two operands that are well formed under the same settings are
written alike if and only if they are the same operand, apart from the addresses that their labels
resolved to. -/
theorem text_eq_iff_bare_eq (config : Config) (a b : Operand) (ha : a.IsWellFormed config)
    (hb : b.IsWellFormed config) : a.text = b.text ↔ a.bare = b.bare := by
  constructor
  · intro h
    rw [← Operand.ofText_text ha, ← Operand.ofText_text hb, h]
  · intro h
    rw [← Operand.text_bare a, ← Operand.text_bare b, h]

/-- On a machine with four registers `r5` is a label. It is written alike with a resolved address
and without one, and unlike the register `r3`. -/
theorem text_eq_iff_bare_eq_fourRegisters :
    let config := ({} : Config).withRegisterCount 4
    let label := Operand.indexed ⟨"r5", none⟩ (-3)
    let resolved := Operand.indexed ⟨"r5", some (.code 120)⟩ (-3)
    label.IsWellFormed config ∧ resolved.IsWellFormed config ∧
      (Operand.direct ⟨"r5", none⟩).text ≠ (Operand.register 3).text ∧
      label.text = resolved.text ∧ label.bare = resolved.bare := by
  intro config label resolved
  have hlabel : label.IsWellFormed config := rfl
  have hresolved : resolved.IsWellFormed config := rfl
  have hregister : (Operand.register 3).IsWellFormed config := by
    show 3 < config.usableRegisters
    decide
  refine ⟨hlabel, hresolved, ?_, rfl, ?_⟩
  · rw [ne_eq, text_eq_iff_bare_eq config (.direct ⟨"r5", none⟩) (.register 3) rfl hregister]
    decide
  · exact (text_eq_iff_bare_eq config label resolved hlabel hresolved).1 rfl

/-- A label that is not legal may be written like a register. -/
example : (Operand.direct ⟨"r3", none⟩).text = (Operand.register 3).text := by decide

end SecondPass
