import TwoPass.Expansion
import TwoPass.Proofs.Written

/-! Instructions that the machine executes as they are written.

A text is primitive if, wherever it stands as content, it is read as an instruction that is no
pseudo-instruction, passes the check and has no label in it. Written-out instructions are primitive
as soon as the instruction admits the values of the operands. -/

set_option autoImplicit false

namespace TwoPass

namespace Numeral

theorem isDigit_of_mem_decimalNat {value : Nat} {c : Char} (member : c ∈ decimalNat value) :
    c.isDigit = true :=
  Nat.isDigit_of_mem_toDigits (by decide) (by decide) member

theorem decimalNat_ne_nil (value : Nat) : decimalNat value ≠ [] := Nat.toDigits_ne_nil

theorem decimal_natCast (value : Nat) : decimal value = decimalNat value := by
  have nonnegative : ¬(value : Int) < 0 := by omega
  rw [decimal, if_neg nonnegative, Int.natAbs_natCast]

theorem write_of_short {value : Nat} (short : (decimalNat value).length ≤ digitLimit) :
    write value = .ok (decimalNat value) := by
  rw [write, Int.natAbs_natCast, if_pos short, decimal_natCast]

/-- Addresses, register numbers and chunks are far below the limit of decimal conversion. -/
theorem short_of_le_maxAddress {value : Nat} (small : value ≤ Machine.maxAddress) :
    (decimalNat value).length ≤ digitLimit := by
  have ten : (decimalNat value).length ≤ 10 := by
    refine (Nat.length_toDigits_le_iff (by decide) (by decide)).mpr ?_
    rw [Machine.maxAddress] at small
    omega
  rw [digitLimit]
  omega

end Numeral

namespace Lexeme.Spelled

theorem ofRegister {index : Nat} (short : (Numeral.decimalNat index).length ≤ Numeral.digitLimit) :
    (Lexeme.register index).Spelled ("r" ++ Numeral.decimalNat index) := by
  have spelled := Lexeme.Spelled.register (Numeral.decimalNat_ne_nil index)
    (fun c => Numeral.isDigit_of_mem_decimalNat) short
  rwa [Numeral.decimalNat, Nat.ofDigitChars_ten_toDigits] at spelled

theorem ofNat {value : Nat} (short : (Numeral.decimalNat value).length ≤ Numeral.digitLimit) :
    (Lexeme.number value).Spelled (Numeral.decimalNat value) := by
  have spelled := Lexeme.Spelled.decimal (.inl rfl) (Numeral.decimalNat_ne_nil value)
    (fun c => Numeral.isDigit_of_mem_decimalNat) short
  rwa [Numeral.decimalNat, Nat.ofDigitChars_ten_toDigits] at spelled

theorem ofInt {value : Int} (short : (Numeral.decimalNat value.natAbs).length ≤ Numeral.digitLimit) :
    (Lexeme.number value).Spelled (Numeral.decimal value) := by
  by_cases negative : value < 0
  · have spelled := Lexeme.Spelled.decimal (.inr (.inr rfl))
      (Numeral.decimalNat_ne_nil value.natAbs) (fun c => Numeral.isDigit_of_mem_decimalNat) short
    have same : Scan.signed ['-'] value.natAbs = value := by
      simp only [Scan.signed, beq_self_eq_true, if_true]
      omega
    rw [Numeral.decimalNat, Nat.ofDigitChars_ten_toDigits, same] at spelled
    rw [Numeral.decimal, if_pos negative]
    exact spelled
  · have same : ((value.natAbs : Nat) : Int) = value := by omega
    rw [Numeral.decimal, if_neg negative]
    simpa only [same] using ofNat short

end Lexeme.Spelled

namespace Instruction

theorem find?_eq_some {mnemonic : Text} {instruction : Instruction}
    (found : find? mnemonic = some instruction) :
    instruction ∈ catalog ∧ instruction.mnemonic = mnemonic :=
  ⟨List.mem_of_find?_eq_some found, by simpa using List.find?_some found⟩

theorem mnemonic_spelled {mnemonic : Text} {instruction : Instruction}
    (found : find? mnemonic = some instruction) : (Lexeme.word mnemonic).Spelled mnemonic := by
  have names : ∀ entry ∈ catalog, Text.isName entry.mnemonic = true ∧
      Scan.isRegisterName entry.mnemonic = false := by decide
  obtain ⟨member, rfl⟩ := find?_eq_some found
  exact .word (names instruction member).1 (names instruction member).2

end Instruction

/-- A text that is an instruction wherever it stands as content. -/
structure Primitive (text : Text) : Prop where
  content : Line.IsContent text
  reads : ∀ line : Line, line.text = text → line.body = .content →
    ∃ statement instruction shape, Statement.read line = .ok statement ∧
      Instruction.find? statement.mnemonic = some instruction ∧ instruction.isPseudo = false ∧
      statement.check = .ok shape ∧ shape.any Slot.isLabel = false

theorem Primitive.ofWritten {mnemonic : Text} {instruction : Instruction} {shape : Shape}
    {parts : List (Operand.Value × Text)} (found : Instruction.find? mnemonic = some instruction)
    (real : instruction.isPseudo = false) (unlabelled : shape.any Slot.isLabel = false)
    (some_part : parts ≠ []) (spelled : ∀ part ∈ parts, part.1.Spelled part.2)
    (admits : instruction.Admits shape (parts.map Prod.fst)) :
    Primitive (Statement.writtenText mnemonic (parts.map Prod.snd)) := by
  have word := Instruction.mnemonic_spelled found
  constructor
  · cases word with
    | word valid other =>
      refine Statement.isContent_written valid (by simpa using some_part) ?_
      rw [List.forall_mem_map]
      exact fun part member => (spelled part member).visible
  · intro line text content
    obtain ⟨operands, read, denote⟩ := Statement.read_written word some_part spelled content text
    refine ⟨_, instruction, shape, read, found, real, ?_, unlabelled⟩
    refine Statement.check_eq_ok_iff.mpr ⟨instruction, found, ?_⟩
    rw [← Instruction.admits_placeless_iff, List.map_map]
    exact denote ▸ admits

end TwoPass
