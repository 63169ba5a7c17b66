import Mathlib.Tactic.Ring
import TwoPass.Proofs.Grammar

/-! Numerals that can be converted.

Decimal conversion knows ASCII digits only and is bounded in either direction. In a text whose digits
are ASCII and stand in runs that are short enough, all numerals can be read, and all numbers that are
read can be written again in decimal. -/

set_option autoImplicit false

namespace TwoPass

namespace Numeral

def hexRunLimit : Nat := 3571

theorem pow_hexRunLimit_le : 16 ^ hexRunLimit ≤ 10 ^ digitLimit := by decide +kernel

def Writable (value : Int) : Prop := value.natAbs < 10 ^ digitLimit

theorem write_of_writable {value : Int} (writable : Writable value) :
    write value = .ok (decimal value) := by
  have short : (decimalNat value.natAbs).length ≤ digitLimit :=
    (Nat.length_toDigits_le_iff (by decide) (by decide)).mpr writable
  rw [write, if_pos short]

theorem foldl_digits_lt {base : Nat} {digitValue : Char → Nat} {digits : Text}
    (small : ∀ c ∈ digits, digitValue c < base) (start : Nat) :
    digits.foldl (fun value c => base * value + digitValue c) start <
      (start + 1) * base ^ digits.length := by
  induction digits generalizing start with
  | nil => simp
  | cons c rest ih =>
    rw [List.forall_mem_cons] at small
    have step : base * start + digitValue c + 1 ≤ (start + 1) * base := by
      have below := small.1
      rw [Nat.add_one_mul, Nat.mul_comm start base]
      omega
    calc rest.foldl (fun value c => base * value + digitValue c) (base * start + digitValue c)
        < (base * start + digitValue c + 1) * base ^ rest.length := ih small.2 _
      _ ≤ (start + 1) * base * base ^ rest.length := Nat.mul_le_mul_right _ step
      _ = (start + 1) * base ^ (c :: rest).length := by rw [List.length_cons]; ring

theorem ofDigitChars_lt {digits : Text} (allDigits : ∀ c ∈ digits, c.isDigit = true) :
    Nat.ofDigitChars 10 digits 0 < 10 ^ digits.length := by
  have small : ∀ c ∈ digits, c.toNat - '0'.toNat < 10 := by
    intro c member
    have bounds := Text.isDigit_iff.mp (allDigits c member)
    have zero : '0'.toNat = 48 := rfl
    omega
  have bounded := foldl_digits_lt small 0
  rwa [Nat.zero_add, Nat.one_mul] at bounded

theorem readHex_lt {digits : Text} (allDigits : ∀ c ∈ digits, isHexDigit c = true) :
    readHex digits < 16 ^ digits.length := by
  have small : ∀ c ∈ digits, hexDigitValue c < 16 := by
    intro c member
    have bounds := Text.isHexDigit_iff.mp (allDigits c member)
    have lower : 'a' ≤ c ↔ 97 ≤ c.toNat := by
      rw [Char.le_def, UInt32.le_iff_toNat_le]
      rfl
    have codes : '0'.toNat = 48 ∧ 'a'.toNat = 97 ∧ 'A'.toNat = 65 := ⟨rfl, rfl, rfl⟩
    unfold hexDigitValue
    split
    · next digit =>
      rw [Text.isDigit_iff] at digit
      omega
    · next other =>
      rw [Text.isDigit_iff] at other
      split
      · omega
      · next upper =>
        rw [lower] at upper
        omega
  have bounded := foldl_digits_lt small 0
  rwa [Nat.zero_add, Nat.one_mul] at bounded

theorem isHexDigit_of_isDigit {c : Char} (digit : c.isDigit = true) : isHexDigit c = true := by
  simp [isHexDigit, digit]

end Numeral

/-- All digits are ASCII, and no run of hexadecimal digits is longer than the limit. -/
structure Text.Convertible (text : Text) : Prop where
  plain : ∀ c ∈ text, Text.isDigit c = true → c.isDigit = true
  short : ∀ digits, digits <:+: text → (∀ c ∈ digits, Numeral.isHexDigit c = true) →
    digits.length ≤ Numeral.hexRunLimit

theorem Text.Convertible.part {text part : Text} (convertible : Text.Convertible text)
    (within : part <:+: text) : Text.Convertible part where
  plain c member := convertible.plain c (within.subset member)
  short digits inside := convertible.short digits (inside.trans within)

namespace Text

/-- No run of hexadecimal digits is longer than the limit, where `length` digits stand in front of the
text. -/
structure HexRuns (limit length : Nat) (text : Text) : Prop where
  front : ∀ digits, digits <+: text → (∀ c ∈ digits, Numeral.isHexDigit c = true) →
    length + digits.length ≤ limit
  inside : ∀ digits, digits <:+: text → (∀ c ∈ digits, Numeral.isHexDigit c = true) →
    digits.length ≤ limit

variable {limit length : Nat} {c : Char} {rest text : Text}

theorem HexRuns.start_le (runs : HexRuns limit length text) : length ≤ limit :=
  runs.front [] List.nil_prefix (by simp)

theorem hexRuns_nil (start : length ≤ limit) : HexRuns limit length [] := by
  constructor <;> simp [start]

theorem hexRuns_digit (digit : Numeral.isHexDigit c = true) :
    HexRuns limit length (c :: rest) ↔ HexRuns limit (length + 1) rest := by
  constructor
  · rintro ⟨front, inside⟩
    refine ⟨fun digits begins hex => ?_, fun digits within => ?_⟩
    · have longer := front (c :: digits) (List.cons_prefix_cons.mpr ⟨rfl, begins⟩)
        (List.forall_mem_cons.mpr ⟨digit, hex⟩)
      rw [List.length_cons] at longer
      omega
    · exact inside digits (within.trans (List.suffix_cons c rest).isInfix)
  · rintro ⟨front, inside⟩
    have bounded : ∀ digits, digits <+: c :: rest → (∀ d ∈ digits, Numeral.isHexDigit d = true) →
        length + digits.length ≤ limit := by
      intro digits begins hex
      cases digits with
      | nil =>
        have := front [] List.nil_prefix (by simp)
        omega
      | cons d more =>
        have shorter := front more (List.cons_prefix_cons.mp begins).2 fun e member =>
          hex e (List.mem_cons_of_mem d member)
        rw [List.length_cons]
        omega
    refine ⟨bounded, fun digits within hex => ?_⟩
    rcases List.infix_cons_iff.mp within with first | later
    · have := bounded digits first hex
      omega
    · exact inside digits later hex

theorem hexRuns_other (start : length ≤ limit) (other : Numeral.isHexDigit c = false) :
    HexRuns limit length (c :: rest) ↔ HexRuns limit 0 rest := by
  constructor
  · rintro ⟨-, inside⟩
    have later : ∀ digits, digits <:+: rest → (∀ d ∈ digits, Numeral.isHexDigit d = true) →
        digits.length ≤ limit := fun digits within =>
      inside digits (within.trans (List.suffix_cons c rest).isInfix)
    refine ⟨fun digits begins hex => ?_, later⟩
    rw [Nat.zero_add]
    exact later digits begins.isInfix hex
  · rintro ⟨-, inside⟩
    -- a run that begins with the text would begin with the character
    have none_first : ∀ digits, digits <+: c :: rest →
        (∀ d ∈ digits, Numeral.isHexDigit d = true) → digits = [] := by
      intro digits begins hex
      cases digits with
      | nil => rfl
      | cons d more =>
        obtain ⟨rfl, -⟩ := List.cons_prefix_cons.mp begins
        rw [hex d List.mem_cons_self] at other
        cases other
    refine ⟨fun digits begins hex => ?_, fun digits within hex => ?_⟩
    · rw [none_first digits begins hex]
      exact start
    · rcases List.infix_cons_iff.mp within with first | later
      · rw [none_first digits first hex]
        exact Nat.zero_le limit
      · exact inside digits later hex

def hexRunsWithin (limit : Nat) : (length : Nat) → Text → Bool
  | length, [] => length ≤ limit
  | length, c :: rest =>
    if Numeral.isHexDigit c then hexRunsWithin limit (length + 1) rest
    else length ≤ limit && hexRunsWithin limit 0 rest

theorem hexRunsWithin_iff : hexRunsWithin limit length text = true ↔ HexRuns limit length text := by
  induction text generalizing length with
  | nil =>
    rw [hexRunsWithin, decide_eq_true_eq]
    exact ⟨hexRuns_nil, HexRuns.start_le⟩
  | cons c rest ih =>
    rw [hexRunsWithin]
    split
    · next digit => exact ih.trans (hexRuns_digit digit).symm
    · next mixed =>
      have other : Numeral.isHexDigit c = false := by simpa using mixed
      rw [Bool.and_eq_true, decide_eq_true_eq, ih]
      constructor
      · rintro ⟨start, runs⟩
        exact (hexRuns_other start other).mpr runs
      · intro runs
        exact ⟨runs.start_le, (hexRuns_other runs.start_le other).mp runs⟩

theorem hexRunsWithin_append {digits : Text} (hex : ∀ c ∈ digits, Numeral.isHexDigit c = true) :
    hexRunsWithin limit length (digits ++ rest) =
      hexRunsWithin limit (length + digits.length) rest := by
  induction digits generalizing length with
  | nil => rfl
  | cons c digits ih =>
    rw [List.forall_mem_cons] at hex
    rw [List.cons_append, hexRunsWithin, if_pos hex.1, ih hex.2, List.length_cons]
    congr 1
    omega

/-- The test of characters runs through the text and not through all characters. -/
theorem convertible_iff : Convertible text ↔
    (text.all fun c => !Text.isDigit c || c.isDigit) = true ∧
      hexRunsWithin Numeral.hexRunLimit 0 text = true := by
  have plain_iff : (text.all fun c => !Text.isDigit c || c.isDigit) = true ↔
      ∀ c ∈ text, Text.isDigit c = true → c.isDigit = true := by
    rw [List.all_eq_true]
    refine forall₂_congr fun c _ => ?_
    cases Text.isDigit c <;> simp
  rw [hexRunsWithin_iff, plain_iff]
  constructor
  · rintro ⟨plain, short⟩
    refine ⟨plain, fun digits begins hex => ?_, short⟩
    rw [Nat.zero_add]
    exact short digits begins.isInfix hex
  · rintro ⟨plain, runs⟩
    exact ⟨plain, runs.inside⟩

instance (text : Text) : Decidable (Convertible text) := decidable_of_iff' _ convertible_iff

end Text

namespace Scan

variable {text rest : Text} {fault : Numeral.Fault}

theorem read_of_convertible {digits : Text} (convertible : Text.Convertible text)
    (within : digits <:+: text) (nonempty : digits ≠ [])
    (allDigits : ∀ c ∈ digits, c.isDigit = true) :
    Numeral.read digits = .ok (Nat.ofDigitChars 10 digits 0) := by
  have short : digits.length ≤ Numeral.hexRunLimit :=
    convertible.short digits within fun c member =>
      Numeral.isHexDigit_of_isDigit (allDigits c member)
  exact Numeral.read_eq_ok_iff.mpr ⟨nonempty, short.trans (by decide), rfl⟩

theorem wordLexeme_of_convertible (convertible : Text.Convertible text) :
    ∃ lexeme, wordLexeme text = .ok lexeme := by
  unfold wordLexeme
  split
  · next d digits =>
    split
    · next allDigits =>
      have within : d :: digits <:+: 'r' :: d :: digits := (List.suffix_cons 'r' _).isInfix
      rw [read_of_convertible convertible within (List.cons_ne_nil d digits)
        (List.all_eq_true.mp allDigits)]
      exact ⟨_, rfl⟩
    · exact ⟨_, rfl⟩
  · exact ⟨_, rfl⟩

theorem word_ne_numeral (convertible : Text.Convertible text) :
    word text ≠ .error (.numeral fault) := by
  obtain ⟨lexeme, told⟩ := wordLexeme_of_convertible
    (convertible.part (List.takeWhile_prefix Text.isNameChar).isInfix)
  rw [word, told]
  simp

theorem unsigned_ne_numeral {c : Char} (convertible : Text.Convertible (c :: rest))
    (digit : c.isDigit = true) : unsigned (c :: rest) ≠ .error (.numeral fault) := by
  unfold unsigned
  split
  · split <;> simp
  · have some_digit : (c :: rest).takeWhile Char.isDigit ≠ [] := by
      simp [List.takeWhile_cons_of_pos digit]
    rw [read_of_convertible convertible (List.takeWhile_prefix Char.isDigit).isInfix some_digit
      fun d member => List.mem_takeWhile_imp member]
    simp

theorem splitSign_of_startsNumber (plain : ∀ c ∈ text, Text.isDigit c = true → c.isDigit = true)
    (begins : startsNumber text = true) :
    ∃ c rest, (splitSign text).2 = c :: rest ∧ c.isDigit = true := by
  unfold splitSign
  split
  · next rest =>
    cases rest with
    | nil => exact absurd begins (by decide)
    | cons d more =>
      refine ⟨d, more, rfl, plain d (by simp) ?_⟩
      simpa [startsNumber, show Text.isDigit '+' = false by decide] using begins
  · next rest =>
    cases rest with
    | nil => exact absurd begins (by decide)
    | cons d more =>
      refine ⟨d, more, rfl, plain d (by simp) ?_⟩
      simpa [startsNumber, show Text.isDigit '-' = false by decide] using begins
  · next notPlus notMinus =>
    cases text with
    | nil => cases begins
    | cons c rest =>
      cases rest with
      | nil => exact ⟨c, [], rfl, plain c (by simp) begins⟩
      | cons d more =>
        refine ⟨c, d :: more, rfl, plain c (by simp) ?_⟩
        have plus : c ≠ '+' := fun same => notPlus (d :: more) (same ▸ rfl)
        have minus : c ≠ '-' := fun same => notMinus (d :: more) (same ▸ rfl)
        simpa [startsNumber, plus, minus] using begins

theorem number_ne_numeral (convertible : Text.Convertible text)
    (begins : startsNumber text = true) : number text ≠ .error (.numeral fault) := by
  obtain ⟨c, rest, behind, digit⟩ := splitSign_of_startsNumber convertible.plain begins
  have within : c :: rest <:+: text := by
    rw [← behind]
    exact List.IsSuffix.isInfix ⟨_, append_of_splitSign text⟩
  have readable := @unsigned_ne_numeral rest fault c (convertible.part within) digit
  unfold number
  rw [behind]
  split
  · next other failed =>
    rw [failed] at readable
    exact fun same => readable (congrArg Except.error (Except.error.inj same))
  · dsimp only
    split <;> simp

/-- No token of a convertible text is a numeral that cannot be read. -/
theorem cut_ne_numeral {c : Char} (convertible : Text.Convertible (c :: rest)) :
    cut c rest ≠ .error (.numeral fault) := by
  unfold cut
  split
  · simp
  split
  · simp
  split
  · simp
  split
  · exact word_ne_numeral convertible
  split
  · next begins => exact number_ne_numeral convertible begins
  split
  · unfold labelReference
    split <;> simp
  · simp

theorem cut_of_scanAt {position offset : Nat} {reason : Fault}
    (stopped : (scanAt position text).ending = .error (reason, offset)) :
    ∃ c rest, c :: rest <:+ text ∧ cut c rest = .error reason := by
  cases scanned : scanAt position text with
  | mk tokens ending =>
    rw [scanned] at stopped
    cases stopped
    obtain ⟨front, c, rest, rfl, -, -, -, refused⟩ := tiled_of_scanAt_error scanned
    exact ⟨c, rest, List.suffix_append front _, refused⟩

theorem Tiled.spelled {position : Nat} {tokens : List Token}
    (tiled : Tiled position text tokens) :
    ∀ token ∈ tokens, token.lexeme.Spelled token.text ∧ token.text <:+: text := by
  induction tiled with
  | spaces gap => simp
  | @token position gap own rest lexeme tokens spaces spelled ends more ih =>
    rw [List.forall_mem_cons]
    refine ⟨⟨spelled, gap, rest, by simp⟩, fun token member => ?_⟩
    have behind : rest <:+ gap ++ (own ++ rest) :=
      (List.suffix_append own rest).trans (List.suffix_append gap _)
    exact ⟨(ih token member).1, (ih token member).2.trans behind.isInfix⟩

end Scan

def Lexeme.number? : Lexeme → Option Int
  | .register index => some index
  | .number value => some value
  | _ => none

theorem Lexeme.Spelled.writable {lexeme : Lexeme} {text : Text} {number : Int}
    (spelled : lexeme.Spelled text) (convertible : Text.Convertible text)
    (told : lexeme.number? = some number) : Numeral.Writable number := by
  have decimal {digits : Text} (within : digits <:+: text)
      (allDigits : ∀ c ∈ digits, c.isDigit = true) :
      Nat.ofDigitChars 10 digits 0 < 10 ^ Numeral.digitLimit := by
    have short := convertible.short digits within fun c member =>
      Numeral.isHexDigit_of_isDigit (allDigits c member)
    exact (Numeral.ofDigitChars_lt allDigits).trans_le
      (Nat.pow_le_pow_right (by decide) (short.trans (by decide)))
  have sign_natAbs (sign : Text) (value : Nat) : (Scan.signed sign value).natAbs = value := by
    unfold Scan.signed
    split <;> simp
  cases spelled with
  | @register digits nonempty allDigits short =>
    cases told
    exact decimal (List.suffix_cons 'r' digits).isInfix allDigits
  | @decimal sign digits signs nonempty allDigits short =>
    cases told
    rw [Numeral.Writable, sign_natAbs]
    exact decimal (List.suffix_append sign digits).isInfix allDigits
  | @hexadecimal sign mark digits signs marks nonempty allDigits =>
    cases told
    rw [Numeral.Writable, sign_natAbs]
    have within : digits <:+: sign ++ (mark ++ digits) :=
      ((List.suffix_append mark digits).trans (List.suffix_append sign _)).isInfix
    have short := convertible.short digits within allDigits
    calc Numeral.readHex digits < 16 ^ digits.length := Numeral.readHex_lt allDigits
      _ ≤ 16 ^ Numeral.hexRunLimit := Nat.pow_le_pow_right (by decide) short
      _ ≤ 10 ^ Numeral.digitLimit := Numeral.pow_hexRunLimit_le
  | _ => cases told

namespace Operand

def Value.numbers : Value → List Int
  | .register index => [index]
  | .immediate value => [value]
  | .memory base displacement _ => [base, displacement]
  | .label _ => []

variable {text : Text}

theorem Derived.mem_numbers {tokens : List Token} {operand : Operand} {number : Int}
    (derived : Derived text tokens operand) (member : number ∈ operand.value.numbers) :
    ∃ token ∈ tokens, token.lexeme.number? = some number := by
  cases derived with
  | register lexeme | immediate lexeme =>
    cases List.mem_singleton.mp member
    exact ⟨_, List.mem_singleton_self _, by rw [lexeme]; rfl⟩
  | label lexeme => cases member
  | @memory opening base inner outer displacement closing index value _ atBase _ _ atPlace _ =>
    simp only [Value.numbers, List.mem_cons, List.not_mem_nil, or_false] at member
    rcases member with rfl | rfl
    · exact ⟨base, by simp, by rw [atBase]; rfl⟩
    · exact ⟨displacement, by simp, by rw [atPlace]; rfl⟩

end Operand

theorem Statement.writable_of_read {line : Line} {statement : Statement}
    (read : Statement.read line = .ok statement) (convertible : Text.Convertible line.text) :
    ∀ operand ∈ statement.operands, ∀ number ∈ operand.value.numbers, Numeral.Writable number := by
  obtain ⟨tokens, tiled, derived⟩ := Statement.derived_of_read read
  intro operand member number told
  obtain ⟨own, owned, ofOwn⟩ := derived operand member
  obtain ⟨token, taken, value⟩ := ofOwn.mem_numbers told
  obtain ⟨spelled, within⟩ := tiled.spelled token (owned taken)
  exact spelled.writable (convertible.part within) value

end TwoPass
