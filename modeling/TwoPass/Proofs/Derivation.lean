import TwoPass.Proofs.Span

/-! Derivations of statements.

A statement is derived as `WORD (operand ([COMMA] operand)*)?`, and an operand as a register, a
number, a label or the six tokens of a memory operand. A derivation is data: the tokens it stands for
follow from it, and no tokens have two derivations. Reading a line finds the derivation of its tokens
where there is one, and otherwise tells that the line is malformed. -/

set_option autoImplicit false

namespace TwoPass

abbrev Token.Of (lexeme : Lexeme) := { token : Token // token.lexeme = lexeme }

inductive Operand.Derivation where
  | register {index : Nat} (token : Token.Of (.register index))
  | number {value : Int} (token : Token.Of (.number value))
  | label {name : Text} (token : Token.Of (.label name))
  | memory {index : Nat} {displacement : Int} (opening : Token.Of .openParen)
    (base : Token.Of (.register index)) (inner : Token.Of .closeParen)
    (outer : Token.Of .openParen) (place : Token.Of (.number displacement))
    (closing : Token.Of .closeParen)

namespace Operand.Derivation

def tokens : Derivation → List Token
  | .register token | .number token | .label token => [token.1]
  | .memory opening base inner outer place closing =>
    [opening.1, base.1, inner.1, outer.1, place.1, closing.1]

def value : Derivation → Operand.Value
  | @register index _ => .register index
  | @number value _ => .immediate value
  | @label name _ => .label name
  | @memory index displacement _ _ _ _ place _ => .memory index displacement place.1.start

def start : Derivation → Nat
  | .register token | .number token | .label token => token.1.start
  | .memory opening _ _ _ _ _ => opening.1.start

def stop : Derivation → Nat
  | .register token | .number token | .label token => token.1.stop
  | .memory _ _ _ _ _ closing => closing.1.stop

def operand (text : Text) (derivation : Derivation) : Operand :=
  ⟨derivation.value, text.slice derivation.start derivation.stop, derivation.start,
    derivation.stop, false⟩

abbrev Tail := List (Option (Token.Of .comma) × Derivation)

def separated (part : Option (Token.Of .comma) × Derivation) : List Token :=
  part.1.toList.map Subtype.val ++ part.2.tokens

end Operand.Derivation

open Operand.Derivation (Tail separated)

structure Statement.Derivation where
  {name : Text}
  word : Token.Of (.word name)
  operands : Option (Operand.Derivation × Tail)

namespace Statement.Derivation

def operandTokens : Option (Operand.Derivation × Tail) → List Token
  | none => []
  | some (first, tail) => first.tokens ++ tail.flatMap separated

def tokens (derivation : Derivation) : List Token :=
  derivation.word.1 :: operandTokens derivation.operands

def parts : Option (Operand.Derivation × Tail) → List Operand.Derivation
  | none => []
  | some (first, tail) => first :: tail.map Prod.snd

end Statement.Derivation

namespace Operand.Derivation

/-- No operand is the beginning of another. -/
theorem tokens_append_inj {first second : Derivation} {rest rest' : List Token}
    (same : first.tokens ++ rest = second.tokens ++ rest') : first = second ∧ rest = rest' := by
  cases first with
  | register token | number token | label token =>
    obtain ⟨token, is⟩ := token
    cases second with
    | register other | number other | label other =>
      obtain ⟨other, is'⟩ := other
      obtain ⟨rfl, rfl⟩ := List.cons_eq_cons.mp same
      cases is.symm.trans is' <;> exact ⟨rfl, rfl⟩
    | memory opening =>
      obtain ⟨rfl, -⟩ := List.cons_eq_cons.mp same
      cases is.symm.trans opening.2
  | memory opening base inner outer place closing =>
    cases second with
    | register other | number other | label other =>
      obtain ⟨start, -⟩ := List.cons_eq_cons.mp same
      cases opening.2.symm.trans ((congrArg Token.lexeme start).trans other.2)
    | memory opening' base' inner' outer' place' closing' =>
      obtain ⟨base, isBase⟩ := base
      obtain ⟨place, isPlace⟩ := place
      obtain ⟨base', isBase'⟩ := base'
      obtain ⟨place', isPlace'⟩ := place'
      simp only [tokens, List.cons_append, List.nil_append, List.cons.injEq] at same
      obtain ⟨sameOpening, rfl, sameInner, sameOuter, rfl, sameClosing, rfl⟩ := same
      -- the lexemes of the base and of the place tell its register and its displacement
      cases isBase.symm.trans isBase'
      cases isPlace.symm.trans isPlace'
      cases Subtype.ext sameOpening
      cases Subtype.ext sameInner
      cases Subtype.ext sameOuter
      cases Subtype.ext sameClosing
      exact ⟨rfl, rfl⟩

theorem tokens_ne_nil (derivation : Derivation) : derivation.tokens ≠ [] := by
  cases derivation <;> exact List.cons_ne_nil _ _

theorem tokens_append_ne_comma {derivation : Derivation} {rest others : List Token}
    (comma : Token.Of .comma) : derivation.tokens ++ rest ≠ comma.1 :: others := by
  intro same
  cases derivation with
  | register token | number token | label token =>
    obtain ⟨start, -⟩ := List.cons_eq_cons.mp same
    cases token.2.symm.trans ((congrArg Token.lexeme start).trans comma.2)
  | memory opening =>
    obtain ⟨start, -⟩ := List.cons_eq_cons.mp same
    cases opening.2.symm.trans ((congrArg Token.lexeme start).trans comma.2)

theorem separated_append_inj {first second : Option (Token.Of .comma) × Derivation}
    {rest rest' : List Token} (same : separated first ++ rest = separated second ++ rest') :
    first = second ∧ rest = rest' := by
  obtain ⟨comma, derivation⟩ := first
  obtain ⟨comma', derivation'⟩ := second
  simp only [separated, List.append_assoc] at same
  match comma, comma' with
  | none, none =>
    obtain ⟨rfl, rfl⟩ := tokens_append_inj same
    exact ⟨rfl, rfl⟩
  | none, some comma' => exact absurd same (tokens_append_ne_comma comma')
  | some comma, none => exact absurd same.symm (tokens_append_ne_comma comma)
  | some comma, some comma' =>
    obtain ⟨sameComma, others⟩ := List.cons_eq_cons.mp same
    obtain ⟨rfl, rfl⟩ := tokens_append_inj others
    cases Subtype.ext sameComma
    exact ⟨rfl, rfl⟩

theorem separated_ne_nil (part : Option (Token.Of .comma) × Derivation) : separated part ≠ [] := by
  intro empty
  exact part.2.tokens_ne_nil (List.append_eq_nil_iff.mp empty).2

theorem flatMap_separated_inj {first second : Tail}
    (same : first.flatMap separated = second.flatMap separated) : first = second := by
  induction first generalizing second with
  | nil =>
    cases second with
    | nil => rfl
    | cons part more =>
      exact absurd (List.append_eq_nil_iff.mp same.symm).1 (separated_ne_nil part)
  | cons part rest ih =>
    cases second with
    | nil => exact absurd (List.append_eq_nil_iff.mp same).1 (separated_ne_nil part)
    | cons other more =>
      obtain ⟨rfl, others⟩ := separated_append_inj same
      rw [ih others]

end Operand.Derivation

namespace Statement.Derivation

theorem operandTokens_inj {first second : Option (Operand.Derivation × Tail)}
    (same : operandTokens first = operandTokens second) : first = second := by
  match first, second with
  | none, none => rfl
  | none, some (operand, tail) =>
    exact absurd (List.append_eq_nil_iff.mp same.symm).1 operand.tokens_ne_nil
  | some (operand, tail), none =>
    exact absurd (List.append_eq_nil_iff.mp same).1 operand.tokens_ne_nil
  | some (operand, tail), some (operand', tail') =>
    obtain ⟨rfl, others⟩ := Operand.Derivation.tokens_append_inj same
    rw [Operand.Derivation.flatMap_separated_inj others]

theorem tokens_injective : Function.Injective tokens := by
  rintro ⟨⟨word, isWord⟩, operands⟩ ⟨⟨word', isWord'⟩, operands'⟩ same
  obtain ⟨rfl, others⟩ := List.cons_eq_cons.mp same
  cases isWord.symm.trans isWord'
  cases operandTokens_inj others
  rfl

end Statement.Derivation

namespace Operand

variable {text : Text} {tokens : List Token}

theorem derived_iff {operand : Operand}
    (sliced : ∀ token ∈ tokens, text.slice token.start token.stop = token.text) :
    Derived text tokens operand ↔
      ∃ derivation : Derivation, derivation.tokens = tokens ∧ derivation.operand text = operand := by
  constructor
  · intro derived
    -- an operand quotes the text, a derivation its tokens
    cases derived with
    | @register token index is =>
      refine ⟨.register ⟨token, is⟩, rfl, ?_⟩
      rw [← sliced token List.mem_cons_self]
      rfl
    | @immediate token value is =>
      refine ⟨.number ⟨token, is⟩, rfl, ?_⟩
      rw [← sliced token List.mem_cons_self]
      rfl
    | @label token name is =>
      refine ⟨.label ⟨token, is⟩, rfl, ?_⟩
      rw [← sliced token List.mem_cons_self]
      rfl
    | memory opens based closes opens' displaced closes' =>
      exact ⟨.memory ⟨_, opens⟩ ⟨_, based⟩ ⟨_, closes⟩ ⟨_, opens'⟩ ⟨_, displaced⟩ ⟨_, closes'⟩, rfl,
        rfl⟩
  · rintro ⟨derivation, rfl, rfl⟩
    cases derivation with
    | register token =>
      have own := sliced token.1 List.mem_cons_self
      have derived := @Derived.register text token.1 _ token.2
      rwa [← own] at derived
    | number token =>
      have own := sliced token.1 List.mem_cons_self
      have derived := @Derived.immediate text token.1 _ token.2
      rwa [← own] at derived
    | label token =>
      have own := sliced token.1 List.mem_cons_self
      have derived := @Derived.label text token.1 _ token.2
      rwa [← own] at derived
    | memory opening base inner outer place closing =>
      exact .memory opening.2 base.2 inner.2 outer.2 place.2 closing.2

theorem continued_iff {operands : List Operand}
    (sliced : ∀ token ∈ tokens, text.slice token.start token.stop = token.text) :
    Continued text tokens operands ↔ ∃ tail : Tail, tail.flatMap separated = tokens ∧
      tail.map (·.2.operand text) = operands := by
  constructor
  · intro continued
    induction continued with
    | nil => exact ⟨[], rfl, rfl⟩
    | operand derived rest ih =>
      rw [List.forall_mem_append] at sliced
      obtain ⟨derivation, rfl, rfl⟩ := (derived_iff sliced.1).mp derived
      obtain ⟨tail, rfl, rfl⟩ := ih sliced.2
      exact ⟨(none, derivation) :: tail, rfl, rfl⟩
    | @comma comma _ _ _ _ marked derived rest ih =>
      rw [List.forall_mem_cons, List.forall_mem_append] at sliced
      obtain ⟨derivation, rfl, rfl⟩ := (derived_iff sliced.2.1).mp derived
      obtain ⟨tail, rfl, rfl⟩ := ih sliced.2.2
      exact ⟨(some ⟨comma, marked⟩, derivation) :: tail, by simp [separated], rfl⟩
  · rintro ⟨tail, rfl, rfl⟩
    induction tail with
    | nil => exact .nil
    | cons part rest ih =>
      obtain ⟨comma, derivation⟩ := part
      rw [List.flatMap_cons, List.forall_mem_append, separated, List.forall_mem_append] at sliced
      have derived := (derived_iff sliced.1.2).mpr ⟨derivation, rfl, rfl⟩
      have continued := ih sliced.2
      cases comma with
      | none => exact .operand derived continued
      | some comma =>
        have marked := Continued.comma comma.2 derived continued
        simpa [separated] using marked

theorem listed_iff {operands : List Operand}
    (sliced : ∀ token ∈ tokens, text.slice token.start token.stop = token.text) :
    Listed text tokens operands ↔ ∃ derivation : Option (Derivation × Tail),
      Statement.Derivation.operandTokens derivation = tokens ∧
        (Statement.Derivation.parts derivation).map (·.operand text) = operands := by
  constructor
  · intro listed
    cases listed with
    | nil => exact ⟨none, rfl, rfl⟩
    | operand derived rest =>
      rw [List.forall_mem_append] at sliced
      obtain ⟨derivation, rfl, rfl⟩ := (derived_iff sliced.1).mp derived
      obtain ⟨tail, rfl, rfl⟩ := (continued_iff sliced.2).mp rest
      exact ⟨some (derivation, tail), rfl, by simp [Statement.Derivation.parts]⟩
  · rintro ⟨derivation, rfl, rfl⟩
    match derivation with
    | none => exact .nil
    | some (first, tail) =>
      rw [Statement.Derivation.operandTokens, List.forall_mem_append] at sliced
      have derived := (derived_iff sliced.1).mpr ⟨first, rfl, rfl⟩
      have continued := (continued_iff sliced.2).mpr ⟨tail, rfl, rfl⟩
      rw [Statement.Derivation.parts, List.map_cons, List.map_map]
      exact .operand derived continued

end Operand

namespace Statement

variable {line : Line}

def Derivation.Derives (derivation : Derivation) (text : Text) : Prop :=
  Scan.ofText text = ⟨derivation.tokens, .ok (Scan.endAt text.length)⟩

theorem Derivation.derives_iff {derivation : Derivation} {text : Text} :
    derivation.Derives text ↔ Scan.Tiled 0 text derivation.tokens := by
  have scanned := @Scan.scanAt_eq_ok_iff 0 text derivation.tokens (Scan.endAt text.length)
  rw [Nat.zero_add] at scanned
  exact scanned.trans (and_iff_left rfl)

/-- A content line reads as a statement exactly if its tokens have a derivation. -/
theorem read_eq_ok_iff_derives {statement : Statement} (content : line.body = .content) :
    Statement.read line = .ok statement ↔
      ∃ derivation : Derivation, derivation.Derives line.text ∧ statement = ⟨Text.firstWord line.text,
        (Derivation.parts derivation.operands).map (·.operand line.text), line⟩ := by
  rw [read_eq_ok_iff]
  constructor
  · rintro ⟨-, first, tokens, operands, name, tiled, word, listed, rfl⟩
    have slices := tiled.slice_eq rfl
    rw [List.forall_mem_cons] at slices
    obtain ⟨derivation, rfl, rfl⟩ := (Operand.listed_iff slices.2).mp listed
    exact ⟨⟨⟨first, word⟩, derivation⟩, Derivation.derives_iff.mpr tiled, rfl⟩
  · rintro ⟨derivation, derives, rfl⟩
    have tiled := Derivation.derives_iff.mp derives
    have slices := tiled.slice_eq rfl
    rw [Derivation.tokens, List.forall_mem_cons] at slices
    exact ⟨content, _, _, _, _, tiled, derivation.word.2,
      (Operand.listed_iff slices.2).mpr ⟨_, rfl, rfl⟩, rfl⟩

theorem exists_misread {failure : Failure} (content : line.body = .content)
    (converts : ∀ fault offset, (Scan.ofText line.text).ending ≠ .error (.numeral fault, offset))
    (failed : Statement.read line = .error failure) :
    ∃ misreading, failure = .problem (misread line misreading) := by
  unfold Statement.read at failed
  rw [if_neg (not_not.mpr content)] at failed
  dsimp only at failed
  split at failed
  · next fault offset stopped => exact absurd stopped (converts fault offset)
  · cases failed
    exact ⟨_, rfl⟩
  · split at failed
    · cases failed
      exact ⟨_, rfl⟩
    · cases failed

/-- The fault of a malformed line belongs to the pseudo-instruction that the line begins with. -/
theorem category_misread (line : Line) (misreading : Misreading) :
    (misread line misreading).fault.category =
      if (Instruction.pseudo? (Text.firstWord line.text)).isSome then .pseudoInstruction
      else .malformedLine := by
  unfold misread
  dsimp only
  split <;> rfl

/-- Content in which all numbers can be converted is read exactly if its tokens have a derivation.
There is only one then, and the operands are those of the derivation, each with the characters that
the line holds between its offsets. Any other line has a problem: one of the pseudo-instruction that
it begins with, or else that of a malformed line. -/
theorem reads_exactly_grammar (content : line.body = .content)
    (converts : ∀ fault offset,
      (Scan.ofText line.text).ending ≠ .error (.numeral fault, offset)) :
    ((∃ statement, Statement.read line = .ok statement) ↔
      ∃ derivation : Derivation, derivation.Derives line.text) ∧
    (∀ derivation : Derivation, derivation.Derives line.text →
      (∀ other : Derivation, other.Derives line.text → other = derivation) ∧
      Statement.read line = .ok ⟨Text.firstWord line.text,
        (Derivation.parts derivation.operands).map (·.operand line.text), line⟩) ∧
    ((¬∃ derivation : Derivation, derivation.Derives line.text) →
      ∃ found, Statement.read line = .error (.problem found) ∧ found.fault.category =
        if (Instruction.pseudo? (Text.firstWord line.text)).isSome then .pseudoInstruction
        else .malformedLine) := by
  refine ⟨⟨?_, ?_⟩, ?_, ?_⟩
  · rintro ⟨statement, read⟩
    obtain ⟨derivation, derives, -⟩ := (read_eq_ok_iff_derives content).mp read
    exact ⟨derivation, derives⟩
  · rintro ⟨derivation, derives⟩
    exact ⟨_, (read_eq_ok_iff_derives content).mpr ⟨derivation, derives, rfl⟩⟩
  · intro derivation derives
    refine ⟨fun other derives' => ?_,
      (read_eq_ok_iff_derives content).mpr ⟨derivation, derives, rfl⟩⟩
    -- both derive the tokens of the line
    exact Derivation.tokens_injective (congrArg Scan.tokens (derives'.symm.trans derives))
  · intro underived
    cases read : Statement.read line with
    | ok statement =>
      obtain ⟨derivation, derives, -⟩ := (read_eq_ok_iff_derives content).mp read
      exact absurd ⟨derivation, derives⟩ underived
    | error failure =>
      obtain ⟨misreading, rfl⟩ := exists_misread content converts read
      exact ⟨_, rfl, category_misread line misreading⟩

/-- A comma may be left out between operands, but not be written twice. -/
theorem reads_exactly_grammar_commas :
    let line := Line.ofContent "mov r1 ( r31 )(-0x8)" 0 "demo" 1
    let other := Line.ofContent "push r1,, r2" 0 "demo" 2
    line.body = .content ∧ other.body = .content ∧
    (∀ fault offset, (Scan.ofText line.text).ending ≠ .error (.numeral fault, offset)) ∧
    (∀ fault offset, (Scan.ofText other.text).ending ≠ .error (.numeral fault, offset)) ∧
    (∃ derivation : Derivation, derivation.Derives line.text ∧
      (Derivation.parts derivation.operands).map (·.operand line.text) =
        [⟨.register 1, "r1", 4, 6, false⟩, ⟨.memory 31 (-8) 15, "( r31 )(-0x8)", 7, 20, false⟩]) ∧
    ∃ found, Statement.read other = .error (.problem found) ∧
      found.fault.category = .pseudoInstruction := by
  intro line other
  have scanned : (Scan.ofText line.text).ending = .ok (Scan.endAt 20) := by rfl
  have scanned' : (Scan.ofText other.text).ending = .ok (Scan.endAt 12) := by rfl
  have converts : ∀ fault offset,
      (Scan.ofText line.text).ending ≠ .error (.numeral fault, offset) := by
    rw [scanned]
    nofun
  have converts' : ∀ fault offset,
      (Scan.ofText other.text).ending ≠ .error (.numeral fault, offset) := by
    rw [scanned']
    nofun
  have read : Statement.read line = .ok ⟨"mov", [⟨.register 1, "r1", 4, 6, false⟩,
      ⟨.memory 31 (-8) 15, "( r31 )(-0x8)", 7, 20, false⟩], line⟩ := by rfl
  have refused : ¬∃ statement, Statement.read other = .ok statement := by
    rintro ⟨statement, read⟩
    cases read
  obtain ⟨accepts, derived, -⟩ := @reads_exactly_grammar line rfl converts
  obtain ⟨accepts', -, otherwise⟩ := @reads_exactly_grammar other rfl converts'
  obtain ⟨derivation, derives⟩ := accepts.mp ⟨_, read⟩
  have same := Except.ok.inj (read.symm.trans (derived derivation derives).2)
  exact ⟨rfl, rfl, converts, converts', ⟨derivation, derives, (congrArg operands same).symm⟩,
    otherwise (mt accepts'.mpr refused)⟩

end Statement

end TwoPass
