import TwoPass.Proofs.Tiling
import TwoPass.Statement

/-! The grammar of statements.

A statement is a word and operands behind it, with a comma or nothing between two operands. The
grammar says which tokens make up an operand and what the operand is; reading tokens follows it
exactly, in both directions. -/

set_option autoImplicit false

namespace TwoPass

theorem Except.bind_eq_ok_iff {ε α β : Type} {first : Except ε α} {next : α → Except ε β} {result : β} :
    (first >>= next) = .ok result ↔ ∃ value, first = .ok value ∧ next value = .ok result := by
  cases first with
  | error fault => simp [bind, Except.bind]
  | ok value => simp [bind, Except.bind]

theorem Except.bind_eq_error_iff {ε α β : Type} {value : Except ε α} {next : α → Except ε β}
    {fault : ε} : (value >>= next) = .error fault ↔
      value = .error fault ∨ ∃ result, value = .ok result ∧ next result = .error fault := by
  cases value with
  | error other => simp [bind, Except.bind]
  | ok result => simp [bind, Except.bind]

namespace Operand

inductive Derived (text : Text) : List Token → Operand → Prop where
  | register {token : Token} {index : Nat} : token.lexeme = .register index →
      Derived text [token] ⟨.register index, token.text, token.start, token.stop, false⟩
  | immediate {token : Token} {value : Int} : token.lexeme = .number value →
      Derived text [token] ⟨.immediate value, token.text, token.start, token.stop, false⟩
  | label {token : Token} {name : Text} : token.lexeme = .label name →
      Derived text [token] ⟨.label name, token.text, token.start, token.stop, false⟩
  | memory {opening base inner outer displacement closing : Token} {index : Nat} {value : Int} :
      opening.lexeme = .openParen → base.lexeme = .register index → inner.lexeme = .closeParen →
      outer.lexeme = .openParen → displacement.lexeme = .number value →
      closing.lexeme = .closeParen →
      Derived text [opening, base, inner, outer, displacement, closing]
        ⟨.memory index value displacement.start, text.slice opening.start closing.stop,
          opening.start, closing.stop, false⟩

/-- Operands behind another operand, each with or without a comma in front of it. -/
inductive Continued (text : Text) : List Token → List Operand → Prop where
  | nil : Continued text [] []
  | operand {tokens rest : List Token} {operand : Operand} {operands : List Operand} :
      Derived text tokens operand → Continued text rest operands →
      Continued text (tokens ++ rest) (operand :: operands)
  | comma {comma : Token} {tokens rest : List Token} {operand : Operand} {operands : List Operand} :
      comma.lexeme = .comma → Derived text tokens operand → Continued text rest operands →
      Continued text (comma :: (tokens ++ rest)) (operand :: operands)

inductive Listed (text : Text) : List Token → List Operand → Prop where
  | nil : Listed text [] []
  | operand {tokens rest : List Token} {operand : Operand} {operands : List Operand} :
      Derived text tokens operand → Continued text rest operands →
      Listed text (tokens ++ rest) (operand :: operands)

section
variable {text : Text} {ending : Token}

theorem expect_eq_ok_iff {α : Type} {accept : Lexeme → Option α} {expected : Text} {value : α}
    {token : Token} {tokens rest : List Token} :
    expect ending accept expected tokens = .ok (value, token, rest) ↔
      tokens = token :: rest ∧ accept token.lexeme = some value := by
  cases tokens with
  | nil => simp [expect]
  | cons first others =>
    simp only [expect, List.cons.injEq]
    constructor
    · intro read
      split at read
      · next taken =>
        cases read
        exact ⟨⟨rfl, rfl⟩, taken⟩
      · cases read
    · rintro ⟨⟨rfl, rfl⟩, taken⟩
      rw [taken]

theorem registerIndex?_eq_some_iff {lexeme : Lexeme} {index : Nat} :
    registerIndex? lexeme = some index ↔ lexeme = .register index := by
  cases lexeme <;> simp [registerIndex?]

theorem numberValue?_eq_some_iff {lexeme : Lexeme} {value : Int} :
    numberValue? lexeme = some value ↔ lexeme = .number value := by
  cases lexeme <;> simp [numberValue?]

theorem exactly_eq_some_iff {lexeme found : Lexeme} {value : Unit} :
    exactly lexeme found = some value ↔ found = lexeme := by
  simp [exactly]

theorem readMemory_eq_ok_iff {opening : Token} {tokens rest : List Token} {operand : Operand}
    (opens : opening.lexeme = .openParen) :
    readMemory text ending opening tokens = .ok (operand, rest) ↔
      ∃ own, opening :: tokens = own ++ rest ∧ Derived text own operand := by
  constructor
  · intro read
    simp only [readMemory, Except.bind_eq_ok_iff, Prod.exists, expect_eq_ok_iff,
      registerIndex?_eq_some_iff, numberValue?_eq_some_iff, exactly_eq_some_iff] at read
    obtain ⟨index, base, _, ⟨rfl, atBase⟩, _, inner, _, ⟨rfl, atInner⟩, _, outer, _, ⟨rfl, atOuter⟩,
      value, place, _, ⟨rfl, atPlace⟩, _, closing, _, ⟨rfl, atClosing⟩, result⟩ := read
    cases result
    exact ⟨[opening, base, inner, outer, place, closing], rfl,
      .memory opens atBase atInner atOuter atPlace atClosing⟩
  · rintro ⟨own, whole, derived⟩
    cases derived with
    | register other => simp_all
    | immediate other => simp_all
    | label other => simp_all
    | memory first atBase atInner atOuter atPlace atClosing =>
      cases whole
      simp only [readMemory, Except.bind_eq_ok_iff, Prod.exists, expect_eq_ok_iff,
        registerIndex?_eq_some_iff, numberValue?_eq_some_iff, exactly_eq_some_iff]
      exact ⟨_, _, _, ⟨rfl, atBase⟩, (), _, _, ⟨rfl, atInner⟩, (), _, _, ⟨rfl, atOuter⟩, _, _, _,
        ⟨rfl, atPlace⟩, (), _, _, ⟨rfl, atClosing⟩, rfl⟩

theorem read_eq_ok_iff {token : Token} {tokens rest : List Token} {operand : Operand} :
    Operand.read text ending token tokens = .ok (operand, rest) ↔
      ∃ own, token :: tokens = own ++ rest ∧ Derived text own operand := by
  cases opens : token.lexeme with
  | openParen =>
    simp only [Operand.read, opens]
    exact readMemory_eq_ok_iff opens
  | register index =>
    simp only [Operand.read, opens, Except.ok.injEq, Prod.mk.injEq]
    constructor
    · rintro ⟨rfl, rfl⟩
      exact ⟨[token], rfl, .register opens⟩
    · rintro ⟨own, whole, derived⟩
      cases derived <;> simp_all
  | number value =>
    simp only [Operand.read, opens, Except.ok.injEq, Prod.mk.injEq]
    constructor
    · rintro ⟨rfl, rfl⟩
      exact ⟨[token], rfl, .immediate opens⟩
    · rintro ⟨own, whole, derived⟩
      cases derived <;> simp_all
  | label name =>
    simp only [Operand.read, opens, Except.ok.injEq, Prod.mk.injEq]
    constructor
    · rintro ⟨rfl, rfl⟩
      exact ⟨[token], rfl, .label opens⟩
    · rintro ⟨own, whole, derived⟩
      cases derived <;> simp_all
  | word _ | comma | closeParen | endOfLine =>
    simp only [Operand.read, opens, reduceCtorEq, false_iff]
    rintro ⟨own, whole, derived⟩
    cases derived <;> simp_all

theorem Derived.ne_nil {own : List Token} {operand : Operand} (derived : Derived text own operand) :
    own ≠ [] := by
  cases derived <;> simp

theorem Derived.first_ne_comma {own rest : List Token} {first : Token} {tokens : List Token}
    {operand : Operand} (derived : Derived text own operand) (whole : first :: tokens = own ++ rest) :
    first.lexeme ≠ .comma := by
  cases derived <;> simp_all

def Started (text : Text) (tokens : List Token) (operands : List Operand) : Prop :=
  ∃ own rest operand more, tokens = own ++ rest ∧ operands = operand :: more ∧
    Derived text own operand ∧ Continued text rest more

theorem continued_nil_iff {operands : List Operand} : Continued text [] operands ↔ operands = [] := by
  constructor
  · intro continued
    generalize same : ([] : List Token) = tokens at continued
    cases continued with
    | nil => rfl
    | operand derived rest => simp [derived.ne_nil] at same
    | comma marked derived rest => cases same
  · rintro rfl
    exact .nil

theorem continued_cons_iff {token : Token} {tokens : List Token} {operands : List Operand} :
    Continued text (token :: tokens) operands ↔
      if token.lexeme = .comma then Started text tokens operands
      else Started text (token :: tokens) operands := by
  constructor
  · intro continued
    generalize same : token :: tokens = all at continued
    cases continued with
    | nil => cases same
    | operand derived rest =>
      rw [if_neg (derived.first_ne_comma same)]
      exact ⟨_, _, _, _, rfl, rfl, derived, rest⟩
    | comma marked derived rest =>
      cases same
      rw [if_pos marked]
      exact ⟨_, _, _, _, rfl, rfl, derived, rest⟩
  · split
    · next marked =>
      rintro ⟨own, rest, operand, more, rfl, rfl, derived, continued⟩
      exact .comma marked derived continued
    · rintro ⟨own, rest, operand, more, same, rfl, derived, continued⟩
      rw [same]
      exact .operand derived continued

theorem not_started_nil {operands : List Operand} : ¬Started text [] operands := by
  rintro ⟨own, rest, operand, more, same, -, derived, -⟩
  simp [derived.ne_nil] at same

theorem readList_started {room : Nat} {token : Token} {tokens : List Token} {operands : List Operand}
    (enough : tokens.length ≤ room)
    (reads : ∀ (rest : List Token) (more : List Operand), rest.length ≤ room →
      (readList text ending room false rest = .ok more ↔ Continued text rest more)) :
    (do let (operand, rest) ← Operand.read text ending token tokens
        let more ← readList text ending room false rest
        pure (operand :: more)) = .ok operands ↔ Started text (token :: tokens) operands := by
  simp only [Except.bind_eq_ok_iff, Prod.exists, read_eq_ok_iff, Started]
  -- an operand has a token at least, so the room suffices for the tokens behind it
  have bound : ∀ own rest : List Token, own ≠ [] → token :: tokens = own ++ rest →
      rest.length ≤ room := by
    intro own rest nonempty whole
    have lengths := congrArg List.length whole
    have := List.length_pos_iff.mpr nonempty
    simp only [List.length_cons, List.length_append] at lengths
    omega
  constructor
  · rintro ⟨operand, rest, ⟨own, whole, derived⟩, more, read, result⟩
    cases result
    exact ⟨own, rest, operand, more, whole, rfl, derived,
      (reads rest more (bound own rest derived.ne_nil whole)).mp read⟩
  · rintro ⟨own, rest, operand, more, whole, rfl, derived, continued⟩
    exact ⟨operand, rest, ⟨own, whole, derived⟩, more,
      (reads rest more (bound own rest derived.ne_nil whole)).mpr continued, rfl⟩

theorem readList_continued {room : Nat} {tokens : List Token} {operands : List Operand}
    (enough : tokens.length ≤ room) :
    readList text ending room false tokens = .ok operands ↔ Continued text tokens operands := by
  induction room generalizing tokens operands with
  | zero =>
    have empty : tokens = [] := List.length_eq_zero_iff.mp (Nat.le_zero.mp enough)
    subst empty
    rw [continued_nil_iff, readList, Except.ok.injEq, eq_comm]
  | succ room ih =>
    have reads : ∀ (rest : List Token) (more : List Operand), rest.length ≤ room →
        (readList text ending room false rest = .ok more ↔ Continued text rest more) :=
      fun rest more short => ih short
    match tokens, enough with
    | [], _ =>
      rw [continued_nil_iff, readList]
      exact ⟨fun read => (Except.ok.inj read).symm, fun same => congrArg Except.ok same.symm⟩
    | token :: rest, enough =>
      rw [continued_cons_iff, readList]
      simp only [List.length_cons, Nat.add_le_add_iff_right] at enough
      by_cases marked : token.lexeme = .comma
      · match rest, enough with
        -- nothing behind a comma is an error
        | [], _ => simp [skipComma, marked, not_started_nil, bind, Except.bind]
        | second :: others, enough =>
          simp only [List.length_cons] at enough
          simp only [skipComma, marked, Bool.not_false, Bool.true_and, decide_true, if_true,
            List.isEmpty_cons, Bool.false_eq_true, if_false]
          exact readList_started (by omega) reads
      · simp only [skipComma, marked, decide_false, Bool.and_false, Bool.false_eq_true, if_false]
        exact readList_started enough reads

theorem readList_listed {tokens : List Token} {operands : List Operand} :
    readList text ending tokens.length true tokens = .ok operands ↔ Listed text tokens operands := by
  match tokens with
  | [] =>
    rw [List.length_nil, readList]
    constructor
    · intro read
      cases read
      exact .nil
    · intro listed
      generalize same : ([] : List Token) = tokens at listed
      cases listed with
      | nil => rfl
      | operand derived rest => simp [derived.ne_nil] at same
  | token :: rest =>
    have reads : ∀ (others : List Token) (more : List Operand), others.length ≤ rest.length →
        (readList text ending rest.length false others = .ok more ↔ Continued text others more) :=
      fun others more short => readList_continued short
    rw [List.length_cons, readList]
    simp only [skipComma, Bool.not_true, Bool.false_and, Bool.false_eq_true, if_false]
    refine Iff.trans (readList_started (Nat.le_refl rest.length) reads) ?_
    constructor
    · rintro ⟨own, others, operand, more, same, rfl, derived, continued⟩
      rw [same]
      exact .operand derived continued
    · intro listed
      generalize same : token :: rest = tokens at listed
      cases listed with
      | nil => cases same
      | operand derived others => exact ⟨_, _, _, _, rfl, rfl, derived, others⟩

theorem Listed.continued {tokens : List Token} {operands : List Operand}
    (listed : Listed text tokens operands) : Continued text tokens operands := by
  cases listed with
  | nil => exact .nil
  | operand derived rest => exact .operand derived rest

theorem Continued.derived_of_mem {tokens : List Token} {operands : List Operand}
    (continued : Continued text tokens operands) :
    ∀ operand ∈ operands, ∃ own, own ⊆ tokens ∧ Derived text own operand := by
  induction continued with
  | nil => simp
  | @operand own rest operand operands derived more ih =>
    rw [List.forall_mem_cons]
    refine ⟨⟨own, List.subset_append_left own rest, derived⟩, fun other member => ?_⟩
    obtain ⟨later, within, also⟩ := ih other member
    exact ⟨later, List.subset_append_of_subset_right own within, also⟩
  | @comma comma own rest operand operands marked derived more ih =>
    rw [List.forall_mem_cons]
    refine ⟨⟨own, ?_, derived⟩, fun other member => ?_⟩
    · exact List.subset_cons_of_subset comma (List.subset_append_left own rest)
    · obtain ⟨later, within, also⟩ := ih other member
      exact ⟨later, List.subset_cons_of_subset comma
        (List.subset_append_of_subset_right own within), also⟩

end

end Operand

namespace Statement

/-- A content line reads as a statement exactly if its tokens are a word and operands. -/
theorem read_eq_ok_iff {line : Line} {statement : Statement} :
    Statement.read line = .ok statement ↔ line.body = .content ∧
      ∃ first tokens operands name, Scan.Tiled 0 line.text (first :: tokens) ∧
        first.lexeme = .word name ∧ Operand.Listed line.text tokens operands ∧
        statement = ⟨Text.firstWord line.text, operands, line⟩ := by
  have scan : Scan.ofText line.text = Scan.scanAt 0 line.text := rfl
  constructor
  · intro read
    unfold Statement.read at read
    split at read
    · cases read
    next content =>
    simp only [scan] at read
    cases scanned : Scan.scanAt 0 line.text with
    | mk all stop =>
      rw [scanned] at read
      match stop, scanned, read with
      | .error (.numeral fault, _), _, read => cases read
      | .error (.malformed cause, offset), _, read => cases read
      | .ok ending, scanned, read =>
        have tiled := (Scan.scanAt_eq_ok_iff.mp scanned).1
        dsimp only at read
        split at read
        · cases read
        next operands told =>
        cases read
        match all, tiled, told with
        | [], _, told => cases told
        | first :: tokens, tiled, told =>
          simp only [readTokens] at told
          split at told
          · next name word =>
            exact ⟨not_not.mp content, first, tokens, operands, name, tiled, word,
              Operand.readList_listed.mp told, rfl⟩
          · cases told
  · rintro ⟨content, first, tokens, operands, name, tiled, word, listed, rfl⟩
    have scanned := Scan.scanAt_of_tiled tiled
    have told : readTokens line.text (Scan.endAt (0 + line.text.length)) (first :: tokens) =
        .ok operands := by
      simp only [readTokens, word]
      exact Operand.readList_listed.mpr listed
    unfold Statement.read
    simp only [content, scan, scanned, told, not_true_eq_false, if_false, ne_eq]

theorem derived_of_read {line : Line} {statement : Statement}
    (read : Statement.read line = .ok statement) :
    ∃ tokens, Scan.Tiled 0 line.text tokens ∧ ∀ operand ∈ statement.operands,
      ∃ own, own ⊆ tokens ∧ Operand.Derived line.text own operand := by
  obtain ⟨-, first, tokens, operands, name, tiled, -, listed, rfl⟩ := read_eq_ok_iff.mp read
  refine ⟨first :: tokens, tiled, fun operand member => ?_⟩
  obtain ⟨own, within, derived⟩ := listed.continued.derived_of_mem operand member
  exact ⟨own, List.subset_cons_of_subset first within, derived⟩

end Statement

end TwoPass
