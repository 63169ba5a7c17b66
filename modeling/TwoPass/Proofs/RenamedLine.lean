import TwoPass.Proofs.Place
import TwoPass.Proofs.Renaming
import TwoPass.Proofs.UndefinedLabel

/-! Lines with other label names.

A renamed line of code reads as the same statement, but for the names in it, passes the check exactly
if the line does, and is written as the same lines if its labels have the same addresses. A renamed
data item is written as the same text. -/

set_option autoImplicit false

namespace TwoPass

open Scan (Tiled)

namespace Renaming

variable {rename : Renaming}

/-! ### Reading -/

def value (rename : Renaming) : Operand.Value → Operand.Value
  | .label name => .label (rename.apply name)
  | value => value

def MatchesOperand (rename : Renaming) (operand other : Operand) : Prop :=
  other.value.placeless = rename.value operand.value.placeless

theorem MatchesOperand.alike {operand other : Operand}
    (matched : rename.MatchesOperand operand other) : operand.Alike other := by
  have nameless (value : Operand.Value) : value.placeless.nameless = value.nameless := by
    cases value <;> rfl
  have renamed (value : Operand.Value) : (rename.value value).nameless = value.nameless := by
    cases value <;> rfl
  rw [Operand.Alike, ← nameless, matched, renamed, nameless]

section
variable {text text' : Text} {ending ending' : Token} {own others : List Token}

theorem expect_agree {α β γ : Type} {accept : Lexeme → Option α} {same : β → γ → Prop}
    {next : α × Token × List Token → Except Misreading β}
    {next' : α × Token × List Token → Except Misreading γ}
    (blind : ∀ lexeme, accept (rename.lexeme lexeme) = accept lexeme)
    (matched : List.Forall₂ rename.Matches own others) (expected : Text)
    (goesOn : ∀ value token token' rest rest', List.Forall₂ rename.Matches rest rest' →
      Agree (fun _ _ => True) same (next (value, token, rest)) (next' (value, token', rest'))) :
    Agree (fun _ _ => True) same (Operand.expect ending accept expected own >>= next)
      (Operand.expect ending' accept expected others >>= next') := by
  cases matched with
  | nil => exact .error trivial
  | @cons token other rest rest' equal later =>
    rw [Operand.expect, Operand.expect,
      show other.lexeme = rename.lexeme token.lexeme from equal, blind]
    cases accept token.lexeme with
    | none => exact .error trivial
    | some value => exact goesOn value token other rest rest' later

theorem registerIndex?_blind (lexeme : Lexeme) :
    Operand.registerIndex? (rename.lexeme lexeme) = Operand.registerIndex? lexeme := by
  cases lexeme <;> rfl

theorem numberValue?_blind (lexeme : Lexeme) :
    Operand.numberValue? (rename.lexeme lexeme) = Operand.numberValue? lexeme := by
  cases lexeme <;> rfl

theorem exactly_blind (mark : Lexeme) (isMark : mark.isMark = true) (lexeme : Lexeme) :
    Operand.exactly mark (rename.lexeme lexeme) = Operand.exactly mark lexeme := by
  cases mark <;> cases lexeme <;> first | rfl | cases isMark

theorem readMemory_agree (matched : List.Forall₂ rename.Matches own others)
    (opening opening' : Token) :
    Agree (fun _ _ => True)
      (fun taken taken' => rename.MatchesOperand taken.1 taken'.1 ∧
        List.Forall₂ rename.Matches taken.2 taken'.2)
      (Operand.readMemory text ending opening own)
      (Operand.readMemory text' ending' opening' others) := by
  unfold Operand.readMemory
  refine expect_agree registerIndex?_blind matched _ fun base _ _ rest rest' matched => ?_
  refine expect_agree (exactly_blind .closeParen rfl) matched _ fun _ _ _ rest rest' matched => ?_
  refine expect_agree (exactly_blind .openParen rfl) matched _ fun _ _ _ rest rest' matched => ?_
  refine expect_agree numberValue?_blind matched _ fun displacement _ _ rest rest' matched => ?_
  refine expect_agree (exactly_blind .closeParen rfl) matched _ fun _ _ _ rest rest' matched => ?_
  exact .ok ⟨rfl, matched⟩

theorem read_agree {token token' : Token} (same : rename.Matches token token')
    (matched : List.Forall₂ rename.Matches own others) :
    Agree (fun _ _ => True)
      (fun taken taken' => rename.MatchesOperand taken.1 taken'.1 ∧
        List.Forall₂ rename.Matches taken.2 taken'.2)
      (Operand.read text ending token own) (Operand.read text' ending' token' others) := by
  unfold Operand.read
  rw [show token'.lexeme = rename.lexeme token.lexeme from same]
  cases token.lexeme with
  | register index | number value | label name => exact .ok ⟨rfl, matched⟩
  | openParen => exact readMemory_agree matched token token'
  | _ => exact .error trivial

theorem skipComma_agree (matched : List.Forall₂ rename.Matches own others) (isFirst : Bool) :
    Agree (fun _ _ => True) (List.Forall₂ rename.Matches)
      (Operand.skipComma ending isFirst own) (Operand.skipComma ending' isFirst others) := by
  cases matched with
  | nil => exact .ok .nil
  | @cons token other rest rest' same later =>
    have comma : (other.lexeme = .comma) ↔ token.lexeme = .comma := by
      rw [show other.lexeme = rename.lexeme token.lexeme from same]
      cases token.lexeme <;> simp [lexeme]
    have empty : rest'.isEmpty = rest.isEmpty := by cases later <;> rfl
    simp only [Operand.skipComma, comma, empty]
    split
    · split
      · exact .error trivial
      · exact .ok later
    · exact .ok (.cons same later)

/-- Matching tokens are read as matching operands, or neither list can be read. -/
theorem readList_agree (room : Nat) (isFirst : Bool)
    (matched : List.Forall₂ rename.Matches own others) :
    Agree (fun _ _ => True) (List.Forall₂ rename.MatchesOperand)
      (Operand.readList text ending room isFirst own)
      (Operand.readList text' ending' room isFirst others) := by
  induction room generalizing isFirst own others with
  | zero => exact .ok .nil
  | succ room ih =>
    unfold Operand.readList
    refine (skipComma_agree matched isFirst).bind ?_
    rintro rest rest' later
    cases later with
    | nil => exact .ok .nil
    | cons same later =>
      refine (read_agree same later).bind ?_
      rintro ⟨operand, rest⟩ ⟨operand', rest'⟩ ⟨denotes, later⟩
      refine (ih false later).bind ?_
      rintro operands operands' denote
      exact .ok (.cons denotes denote)

theorem readTokens_agree (matched : List.Forall₂ rename.Matches own others) :
    Agree (fun _ _ => True) (List.Forall₂ rename.MatchesOperand)
      (Statement.readTokens text ending own) (Statement.readTokens text' ending' others) := by
  cases matched with
  | nil => exact .error trivial
  | @cons token other rest rest' same later =>
    rw [Statement.readTokens, Statement.readTokens,
      show other.lexeme = rename.lexeme token.lexeme from same]
    cases token.lexeme with
    | word name =>
      -- the room for operands is counted in tokens, of which there are as many
      rw [← later.length_eq]
      exact readList_agree rest.length true later
    | _ => exact .error trivial

end

end Renaming

/-! ### Statements -/

def Failure.Graded (failure other : Failure) : Prop :=
  ∀ found, failure = .problem found → ∃ reason, other = .problem reason ∧
    reason.isFatal = found.isFatal

theorem Failure.Alike.graded {failure other : Failure} (alike : failure.Alike other) :
    failure.Graded other := by
  rintro found rfl
  cases alike with
  | @problem _ reason alike =>
    refine ⟨reason, rfl, ?_⟩
    rw [Problem.isFatal, Problem.isFatal, Problem.severity, Problem.severity,
      show reason.fault = found.fault from alike]
  | refl => exact ⟨found, rfl, rfl⟩

namespace Statement

theorem misread_graded {line other : Line}
    (first : Text.firstWord other.text = Text.firstWord line.text)
    (misreading misreading' : Misreading) :
    Failure.Graded (.problem (misread line misreading)) (.problem (misread other misreading')) := by
  rintro found ⟨⟩
  refine ⟨_, rfl, ?_⟩
  unfold misread
  rw [first]
  by_cases pseudo : (Instruction.pseudo? (Text.firstWord line.text)).isSome = true
  · simp only [if_pos pseudo]
    rfl
  · simp only [if_neg pseudo]
    rfl

theorem read_of_tiled {line : Line} {tokens : List Token} (content : line.body = .content)
    (tiled : Tiled 0 line.text tokens) :
    Statement.read line =
      match readTokens line.text (Scan.endAt (0 + line.text.length)) tokens with
      | .error misreading => .error (.problem (misread line misreading))
      | .ok operands => .ok ⟨Text.firstWord line.text, operands, line⟩ := by
  have scanned : Scan.ofText line.text = ⟨tokens, .ok (Scan.endAt (0 + line.text.length))⟩ :=
    Scan.scanAt_of_tiled tiled
  unfold Statement.read
  rw [if_neg (not_not.mpr content)]
  generalize Scan.ofText line.text = scan at scanned ⊢
  subst scanned
  rfl

end Statement

namespace Renaming

structure MatchesCode (rename : Renaming) (line other : Line) : Prop where
  content : line.body = .content
  contentOther : other.body = .content
  isContent : Line.IsContent line.text
  text : other.text = rename.code line.text

namespace MatchesCode

variable {rename : Renaming} {line other : Line} {instruction : Instruction}

theorem read_agree (matched : rename.MatchesCode line other) {tokens : List Token}
    (tiled : Tiled 0 line.text tokens)
    (known : Instruction.find? (Text.firstWord line.text) = some instruction) :
    Agree Failure.Graded
      (fun statement statement' => statement'.mnemonic = statement.mnemonic ∧
        List.Forall₂ rename.MatchesOperand statement.operands statement'.operands)
      (Statement.read line) (Statement.read other) := by
  have first : Text.firstWord other.text = Text.firstWord line.text := by
    rw [matched.text, firstWord_code matched.isContent known]
  obtain ⟨others, tiled', tokenwise⟩ := @exists_tiled rename _ _ _ tiled 0
  rw [← code_of_tiled tiled, ← matched.text] at tiled'
  rw [Statement.read_of_tiled matched.content tiled,
    Statement.read_of_tiled matched.contentOther tiled']
  have agree := @readTokens_agree rename line.text other.text
    (Scan.endAt (0 + line.text.length)) (Scan.endAt (0 + other.text.length)) tokens others tokenwise
  generalize Statement.readTokens line.text _ tokens = result at agree
  generalize Statement.readTokens other.text _ others = result' at agree
  cases agree with
  | ok denote => exact .ok ⟨first, denote⟩
  | error _ => exact .error (Statement.misread_graded first _ _)

theorem check_agree {statement statement' : Statement}
    (mnemonic : statement'.mnemonic = statement.mnemonic)
    (denote : List.Forall₂ rename.MatchesOperand statement.operands statement'.operands) :
    Agree Failure.Alike Eq statement.check statement'.check :=
  Statement.check_agree mnemonic (denote.imp fun _ _ same => same.alike)

theorem exists_valid (matched : rename.MatchesCode line other) {statement : Statement} {shape : Shape}
    (valid : Statement.Valid line statement instruction shape) :
    ∃ statement', Statement.Valid other statement' instruction shape ∧
      List.Forall₂ rename.MatchesOperand statement.operands statement'.operands := by
  obtain ⟨-, _, _, _, _, tiled, -⟩ := Statement.read_eq_ok_iff.mp valid.read
  have known := valid.known
  rw [Statement.mnemonic_of_read valid.read] at known
  obtain ⟨statement', read, mnemonic, denote⟩ :=
    (matched.read_agree tiled known).exists_ok valid.read
  obtain ⟨_, check, rfl⟩ := (check_agree mnemonic denote).exists_ok valid.check
  exact ⟨statement', ⟨matched.contentOther, read, mnemonic ▸ valid.known, check⟩, denote⟩

/-- A line of a known instruction is refused under other names exactly if it is refused, and as
gravely. -/
theorem ofCode_graded (matched : rename.MatchesCode line other)
    (known : Instruction.find? (Text.firstWord line.text) = some instruction) :
    Agree Failure.Graded (fun _ _ => True) (Entry.ofCode line) (Entry.ofCode other) := by
  rcases code_cases rename line.text with ⟨tokens, tiled⟩ | stays
  · have known' : Instruction.find? (Text.firstWord other.text) = some instruction := by
      rw [matched.text, firstWord_code matched.isContent known, known]
    unfold Entry.ofCode
    rw [Instruction.ofContent_eq_ok_iff.mpr known, Instruction.ofContent_eq_ok_iff.mpr known']
    refine (matched.read_agree tiled known).bind ?_
    rintro statement statement' ⟨mnemonic, denote⟩
    have checked := (check_agree mnemonic denote).mono (fun _ _ alike => alike.graded) fun _ _ => id
    exact checked.bind fun _ _ _ => .ok trivial
  · -- a line that cannot be scanned has not changed
    have text := matched.text.trans stays
    exact (Entry.ofCode_agree text matched.content matched.contentOther).mono
      (fun _ _ alike => alike.graded) fun _ _ _ => trivial

theorem exists_refused (matched : rename.MatchesCode line other) {found : Problem}
    (failed : Entry.ofCode line = .error (.problem found)) (harmless : found.isFatal = false) :
    ∃ reason, Entry.ofCode other = .error (.problem reason) ∧ reason.isFatal = false := by
  cases known : Instruction.find? (Text.firstWord line.text) with
  | none =>
    -- an unknown instruction would be fatal
    unfold Entry.ofCode Instruction.ofContent at failed
    simp only [known] at failed
    cases failed
    cases harmless
  | some instruction =>
    obtain ⟨failure, failed', graded⟩ := (matched.ofCode_graded known).exists_error failed
    obtain ⟨reason, rfl, weight⟩ := graded found rfl
    exact ⟨reason, failed', weight.trans harmless⟩

end MatchesCode

/-! ### Resolving -/

def symbol (rename : Renaming) (symbol : Symbol) : Symbol :=
  { symbol with name := rename.apply symbol.name }

def table (rename : Renaming) (table : SymbolTable) : SymbolTable :=
  { table with symbols := table.symbols.map rename.symbol }

section
variable {rename : Renaming} {table : SymbolTable}

theorem find?_table (name : Text) :
    (rename.table table).find? (rename.apply name) = (table.find? name).map rename.symbol := by
  have same : (fun symbol : Symbol => rename.apply symbol.name == rename.apply name) =
      fun symbol => symbol.name == name := by
    funext symbol
    rw [Bool.eq_iff_iff, beq_iff_eq, beq_iff_eq, rename.injective.eq_iff]
  rw [SymbolTable.find?, Renaming.table, List.find?_map]
  exact congrArg (fun named => (table.symbols.find? named).map rename.symbol) same

theorem find?_table_of_some (rename : Renaming) {name : Text} {symbol : Symbol}
    (bound : table.find? name = some symbol) :
    (rename.table table).find? (rename.apply name) = some (rename.symbol symbol) := by
  rw [find?_table, bound]
  rfl

theorem problem?_eq_none {operand operand' : Operand}
    (denotes : rename.MatchesOperand operand operand') {line : Line} {place : Int} {slot : Slot}
    (silent : operand.problem? line table place slot = none) (other : Line) :
    operand'.problem? other (rename.table table) place slot = none := by
  unfold Operand.problem? at silent ⊢
  rw [MatchesOperand] at denotes
  cases named : operand'.value with
  | label name' =>
    rw [named] at denotes
    cases own : operand.value with
    | label name =>
      rw [own] at denotes
      cases denotes
      rw [own] at silent
      dsimp only at silent
      split at silent
      · cases silent
      next symbol bound =>
      split at silent
      · cases silent
      next near =>
      simp only [rename.find?_table_of_some bound, Renaming.symbol, if_neg near]
    | _ =>
      rw [own] at denotes
      cases denotes
  | _ => rfl

theorem labelProblem?_eq_none {statement statement' : Statement} {place : Int} {shape : Shape}
    (denote : List.Forall₂ rename.MatchesOperand statement.operands statement'.operands)
    (silent : statement.labelProblem? table shape place = none) :
    statement'.labelProblem? (rename.table table) shape place = none := by
  unfold Statement.labelProblem? at silent ⊢
  generalize statement.operands = operands at denote silent
  generalize statement'.operands = operands' at denote
  induction denote generalizing shape with
  | nil => rw [List.zip_nil_right]; rfl
  | cons first _ ih =>
    cases shape with
    | nil => rfl
    | cons slot shape =>
      rw [List.zip_cons_cons, findSome?_cons_or, Option.or_eq_none_iff] at silent ⊢
      exact ⟨problem?_eq_none first silent.1 _, ih silent.2⟩

end

/-! ### Writing code -/

theorem unlabelled_of_derived {text : Text} {tokens : List Token} {operand : Operand}
    (derived : Operand.Derived text tokens operand) (unlabelled : operand.value.label? = none) :
    ∀ token ∈ tokens, ∀ name, token.lexeme ≠ .label name := by
  cases derived with
  | label named => cases unlabelled
  | _ => simp_all

theorem unlabelled_of_continued {text : Text} {tokens : List Token} {operands : List Operand}
    (continued : Operand.Continued text tokens operands)
    (unlabelled : ∀ operand ∈ operands, operand.value.label? = none) :
    ∀ token ∈ tokens, ∀ name, token.lexeme ≠ .label name := by
  induction continued with
  | nil => nofun
  | operand derived rest ih =>
    rw [List.forall_mem_cons] at unlabelled
    exact List.forall_mem_append.mpr ⟨unlabelled_of_derived derived unlabelled.1, ih unlabelled.2⟩
  | comma isComma derived rest ih =>
    rw [List.forall_mem_cons] at unlabelled
    refine List.forall_mem_cons.mpr ⟨by simp [isComma], ?_⟩
    exact List.forall_mem_append.mpr ⟨unlabelled_of_derived derived unlabelled.1, ih unlabelled.2⟩

section
variable {rename : Renaming} {line other : Line} {statement statement' : Statement}
  {instruction : Instruction} {shape : Shape}

theorem code_eq_self (valid : Statement.Valid line statement instruction shape)
    (unlabelled : shape.any Slot.isLabel = false) : rename.code line.text = line.text := by
  obtain ⟨-, first, tokens, operands, word, tiled, isWord, listed, same⟩ :=
    Statement.read_eq_ok_iff.mp valid.read
  have values := Shape.unlabelled_of_takes valid.takes.2 unlabelled
  rw [List.forall_mem_map, same] at values
  rw [code_of_tiled tiled]
  refine tokens_eq_self tiled (List.forall_mem_cons.mpr ⟨by simp [isWord], ?_⟩)
  exact unlabelled_of_continued listed.continued values

theorem code_single {text mnemonic gap name : Text}
    (single : Statement.Single text mnemonic gap (':' :: name)) (valid : Text.isName name = true) :
    rename.code text = mnemonic ++ (gap ++ ':' :: rename.apply name) := by
  have whole : text = [] ++ (mnemonic ++ (gap ++ ((':' :: name) ++ []))) := by
    rw [List.append_nil, List.nil_append, single.whole]
  have tiled := @Tiled.token 0 [] _ _ _ _ (by simp) single.word (.inr (single.apart _))
    (Tiled.token single.spaces (.label valid) (.inr Scan.apart_nil) (@Tiled.spaces _ [] (by simp)))
  rw [← whole] at tiled
  rw [code_of_tiled tiled]
  nth_rewrite 1 [whole]
  rw [tokens_cons, tokens_cons]
  simp [written, tokens]

theorem MatchesOperand.name_eq {operand operand' : Operand} {name name' : Text}
    (denotes : rename.MatchesOperand operand operand') (label : operand.value = .label name)
    (label' : operand'.value = .label name') : name' = rename.apply name := by
  rw [MatchesOperand, label, label'] at denotes
  cases denotes
  rfl

theorem MatchesOperand.index_eq {operand operand' : Operand} {index index' : Nat}
    (denotes : rename.MatchesOperand operand operand') (register : operand.value = .register index)
    (register' : operand'.value = .register index') : index' = index := by
  rw [MatchesOperand, register, register'] at denotes
  cases denotes
  rfl

theorem gap_eq (matched : rename.MatchesCode line other)
    (valid : Statement.Valid line statement instruction shape)
    (mnemonic : statement'.mnemonic = statement.mnemonic)
    (denote : List.Forall₂ rename.MatchesOperand statement.operands statement'.operands)
    {gap gap' name name' : Text} (values : statement.operands.map Operand.value = [.label name])
    (values' : statement'.operands.map Operand.value = [.label name'])
    (single : Statement.Single line.text statement.mnemonic gap (':' :: name))
    (single' : Statement.Single other.text statement'.mnemonic gap' (':' :: name')) :
    gap' = gap ∧ name' = rename.apply name := by
  obtain ⟨operand, only, label⟩ := List.map_eq_singleton_iff.mp values
  obtain ⟨operand', only', label'⟩ := List.map_eq_singleton_iff.mp values'
  obtain ⟨-, -, named, -⟩ := Statement.single_of_label matched.isContent valid only label
  rw [only, only'] at denote
  cases denote with
  | cons denotes _ =>
    obtain rfl := denotes.name_eq label label'
    have whole := matched.text
    rw [code_single single named, single'.whole, mnemonic] at whole
    exact ⟨List.append_cancel_right (List.append_cancel_left whole), rfl⟩

section
variable {table : SymbolTable} {place : Nat} {texts texts' : List Text}

theorem rendered_eq (matched : rename.MatchesCode line other)
    (valid : Statement.Valid line statement instruction shape)
    (valid' : Statement.Valid other statement' instruction shape)
    (denote : List.Forall₂ rename.MatchesOperand statement.operands statement'.operands)
    (rendered : Statement.Rendered table place line statement instruction shape texts)
    (rendered' : Statement.Rendered (rename.table table) place other statement' instruction shape
      texts') : texts' = texts := by
  have mnemonic : statement'.mnemonic = statement.mnemonic :=
    valid'.mnemonic_eq.symm.trans valid.mnemonic_eq
  have address {name : Text} {symbol symbol' : Symbol} (bound : table.find? name = some symbol)
      (bound' : (rename.table table).find? (rename.apply name) = some symbol') :
      symbol'.address = symbol.address := by
    cases bound'.symm.trans (rename.find?_table_of_some bound)
    rfl
  -- without a label the line is the same one
  have unchanged (unlabelled : shape.any Slot.isLabel = false) : other.text = line.text :=
    matched.text.trans (code_eq_self valid unlabelled)
  cases rendered with
  | verbatim real unlabelled =>
    cases rendered' with
    | verbatim => rw [unchanged unlabelled]
    | expanded stands => cases real.symm.trans stands
    | absolute | relative | loaded => cases unlabelled
  | absolute real jump values single bound =>
    cases rendered' with
    | absolute _ _ values' single' bound' =>
      obtain ⟨rfl, rfl⟩ := gap_eq matched valid mnemonic denote values values' single single'
      rw [mnemonic, address bound bound']
    | verbatim _ unlabelled | expanded _ unlabelled => cases unlabelled
  | relative real branch values single bound near =>
    cases rendered' with
    | relative _ _ values' single' bound' =>
      obtain ⟨rfl, rfl⟩ := gap_eq matched valid mnemonic denote values values' single single'
      rw [mnemonic, address bound bound']
    | verbatim _ unlabelled | expanded _ unlabelled => cases unlabelled
  | @expanded _ pseudo instructions stands unlabelled expanded =>
    cases rendered' with
    | verbatim real => cases real.symm.trans stands
    | expanded stands' _ expanded' =>
      have again := Statement.read_relocated valid.read (unchanged unlabelled) matched.contentOther
      cases valid'.read.symm.trans again
      cases stands.symm.trans stands'
      cases expanded.symm.trans expanded'
      rfl
    | absolute | relative | loaded => cases unlabelled
  | loaded stands load small values bound =>
    cases rendered' with
    | loaded _ _ _ values' bound' =>
      obtain ⟨first, rest, both, register, later⟩ := List.map_eq_cons_iff.mp values
      obtain ⟨first', rest', both', register', later'⟩ := List.map_eq_cons_iff.mp values'
      obtain ⟨second, rfl, label⟩ := List.map_eq_singleton_iff.mp later
      obtain ⟨second', rfl, label'⟩ := List.map_eq_singleton_iff.mp later'
      rw [both, both'] at denote
      cases denote with
      | cons denotes others =>
        cases others with
        | cons denotes' _ =>
          obtain rfl := denotes.index_eq register register'
          obtain rfl := denotes'.name_eq label label'
          rw [address bound bound']
    | verbatim _ unlabelled | expanded _ unlabelled => cases unlabelled

end

end

/-! ### Writing data -/

section
variable {rename : Renaming} {table : SymbolTable} {line other : Line} {text : Text}

theorem resolvePieces_eq {pieces pieces' : List DataPiece}
    (matched : List.Forall₂ rename.MatchesPiece pieces pieces')
    (resolved : line.resolvePieces table pieces = .ok text) :
    other.resolvePieces (rename.table table) pieces' = .ok text := by
  induction matched generalizing text with
  | nil => exact resolved
  | cons first _ ih =>
    obtain ⟨written, one, others⟩ := Except.bind_eq_ok_iff.mp resolved
    obtain ⟨more, later, result⟩ := Except.bind_eq_ok_iff.mp others
    refine Except.bind_eq_ok_iff.mpr ⟨written, ?_, Except.bind_eq_ok_iff.mpr ⟨more, ih later, result⟩⟩
    cases first with
    | plain c => exact one
    | reference offset place name =>
      obtain ⟨symbol, looked, found⟩ := Except.bind_eq_ok_iff.mp one
      have bound := rename.find?_table_of_some (SymbolTable.lookup_eq_ok_iff.mp looked)
      exact Except.bind_eq_ok_iff.mpr ⟨_, SymbolTable.lookup_eq_ok_iff.mpr bound, found⟩

theorem resolveData_eq (renamed : other.text = rename.item line.text)
    (resolved : line.resolveData table = .ok text) :
    other.resolveData (rename.table table) = .ok text := by
  rw [Line.resolveData, renamed]
  exact resolvePieces_eq (rename.matches_item line.text) resolved

end

end Renaming

end TwoPass
