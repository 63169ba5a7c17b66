import TwoPass.Proofs.Resolution

/-! What a statement is written as, character by character.

A branch is written as its mnemonic, a gap and its target. When the label there is replaced by a
number nothing else of the line changes, and reading the line gives the number. A statement without
a label stays as it is, and a pseudo-instruction becomes what it stands for. -/

set_option autoImplicit false

namespace TwoPass

open Scan (Tiled isSpace)

namespace Scan

theorem isBlank_of_isSpace {c : Char} (space : isSpace c = true) : Text.isBlank c = true := by
  simp only [isSpace, Bool.or_eq_true, beq_iff_eq] at space
  rcases space with rfl | rfl <;> decide

theorem blank_of_spaces {gap : Text} (spaces : ∀ c ∈ gap, isSpace c = true) :
    ∀ c ∈ gap, Text.isBlank c = true :=
  fun c member => isBlank_of_isSpace (spaces c member)

theorem front_eq_nil {gap rest : Text} (trimmed : Text.Trimmed (gap ++ rest))
    (spaces : ∀ c ∈ gap, isSpace c = true) : gap = [] := by
  cases gap with
  | nil => rfl
  | cons c more =>
    have blank := isBlank_of_isSpace (spaces c List.mem_cons_self)
    cases blank.symm.trans (trimmed.first c rfl)

theorem back_eq_nil {front gap : Text} (trimmed : Text.Trimmed (front ++ gap))
    (spaces : ∀ c ∈ gap, isSpace c = true) : gap = [] := by
  cases ending : gap.getLast? with
  | none => exact List.getLast?_eq_none_iff.mp ending
  | some c =>
    have blank := isBlank_of_isSpace (spaces c (List.mem_of_getLast? ending))
    cases blank.symm.trans (Text.getLast?_visible_of_append trimmed.last c ending)

theorem exists_pair {text : Text} {first second : Token} (tiled : Tiled 0 text [first, second]) :
    ∃ lead gap trail, text = lead ++ ((first.text ++ (gap ++ second.text)) ++ trail) ∧
      (∀ c ∈ lead, isSpace c = true) ∧ (∀ c ∈ gap, isSpace c = true) ∧
      (∀ c ∈ trail, isSpace c = true) ∧
      first.lexeme.Spelled first.text ∧ second.lexeme.Spelled second.text ∧
      second.start = (lead ++ (first.text ++ gap)).length ∧
      second.stop = second.start + second.text.length := by
  cases tiled with
  | @token _ lead word rest lexeme tokens spaces spelled ends more =>
    cases more with
    | @token _ gap written rest lexeme tokens spaces' spelled' ends' more =>
      cases more with
      | spaces trailing =>
        refine ⟨lead, gap, rest, by simp, spaces, spaces', trailing, spelled, spelled', ?_, rfl⟩
        simp only [List.length_append]
        omega

end Scan

theorem Operand.Value.eq_immediate_of_placeless {own : Operand.Value} {value : Int}
    (same : own.placeless = .immediate value) : own = .immediate value := by
  cases own <;> first | exact same | cases same

theorem Operand.Value.eq_register_of_placeless {own : Operand.Value} {index : Nat}
    (same : own.placeless = .register index) : own = .register index := by
  cases own <;> first | exact same | cases same

namespace Statement

theorem firstWord_of_visible {text : Text} (visible : ∀ c ∈ text, Text.isBlank c = false) :
    Text.firstWord text = text := by
  have untrimmed : Text.trimLeft text = text :=
    Text.dropWhile_eq_self fun c first => visible c (List.mem_of_head? first)
  rw [Text.firstWord, untrimmed, List.takeWhile_eq_self_iff]
  simpa using visible

structure Single (text mnemonic gap written : Text) : Prop where
  word : (Lexeme.word mnemonic).Spelled mnemonic
  whole : text = mnemonic ++ (gap ++ written)
  spaces : ∀ c ∈ gap, isSpace c = true
  some_space : gap ≠ []

variable {line : Line} {statement : Statement} {instruction : Instruction} {shape : Shape}

theorem tokens_of_label {text : Text} {tokens : List Token} {operand : Operand} {name : Text}
    (listed : Operand.Listed text tokens [operand]) (label : operand.value = .label name) :
    ∃ token, tokens = [token] ∧ token.lexeme = .label name ∧ operand.start = token.start ∧
      operand.stop = token.stop := by
  cases listed with
  | operand derived continued =>
    cases continued
    cases derived with
    | label isLabel =>
      cases label
      exact ⟨_, by simp, isLabel, rfl, rfl⟩
    | _ => cases label

/-- Without a gap the colon of a label would belong to the mnemonic. -/
theorem gap_ne_nil {text word gap name : Text} {instruction : Instruction}
    (known : Instruction.find? (Text.firstWord text) = some instruction)
    (spelledWord : (Lexeme.word word).Spelled word)
    (spelledLabel : (Lexeme.label name).Spelled (':' :: name))
    (whole : text = word ++ (gap ++ ':' :: name)) : gap ≠ [] := by
  rintro rfl
  have visible : ∀ c ∈ text, Text.isBlank c = false := by
    intro c member
    rw [whole, List.nil_append] at member
    rcases List.mem_append.mp member with inWord | inLabel
    · exact (spelledWord.visible c inWord).1
    · exact (spelledLabel.visible c inLabel).1
  have mnemonic := Instruction.mnemonic_spelled known
  rw [firstWord_of_visible visible, whole] at mnemonic
  cases mnemonic with
  | word valid =>
    exact absurd (Scan.isNameChar_of_mem_name valid ':' (by simp)) (by decide)

theorem exists_single {operand : Operand} {name : Text} (read : Statement.read line = .ok statement)
    (known : Instruction.find? statement.mnemonic = some instruction)
    (only : statement.operands = [operand]) (label : operand.value = .label name) :
    ∃ lead text gap trail, line.text = lead ++ (text ++ trail) ∧ (∀ c ∈ lead, isSpace c = true) ∧
      (∀ c ∈ trail, isSpace c = true) ∧ Single text statement.mnemonic gap (':' :: name) ∧
      Text.isName name = true ∧ operand.start = (lead ++ (statement.mnemonic ++ gap)).length ∧
      operand.stop = (lead ++ text).length := by
  obtain ⟨-, first, tokens, operands, word, tiled, isWord, listed, same⟩ :=
    Statement.read_eq_ok_iff.mp read
  have all : operands = [operand] := by rw [← only, same]
  obtain ⟨token, rfl, isLabel, start, stop⟩ := tokens_of_label (all ▸ listed) label
  obtain ⟨lead, gap, trail, whole, leading, spaces, trailing, spelled, spelled', start', stop'⟩ :=
    Scan.exists_pair tiled
  rw [isWord] at spelled
  rw [isLabel] at spelled'
  generalize first.text = word' at whole spelled start'
  generalize token.text = target at whole spelled' stop'
  cases spelled with
  | word named other =>
  cases spelled' with
  | label valid' =>
  have first : statement.mnemonic = Text.firstWord (word ++ (gap ++ ':' :: name)) := by
    rw [mnemonic_of_read read, whole]
    exact Text.firstWord_blanks (Scan.blank_of_spaces leading) (Scan.blank_of_spaces trailing)
  have some_space : gap ≠ [] :=
    gap_ne_nil (first ▸ known) (.word named other) (.label valid') rfl
  -- the first word ends at the gap, so it is the word that was scanned
  have same : statement.mnemonic = word := by
    rw [first]
    refine firstWord_name named ?_
    intro c head
    obtain ⟨d, more, rfl⟩ := List.exists_cons_of_ne_nil some_space
    cases head
    exact Scan.isBlank_of_isSpace (spaces c List.mem_cons_self)
  rw [same]
  refine ⟨lead, _, gap, trail, whole, leading, trailing,
    ⟨.word named other, rfl, spaces, some_space⟩, valid', start.trans start', ?_⟩
  rw [stop, stop', start']
  simp only [List.length_append]
  omega

theorem single_of_label {operand : Operand} {name : Text} (text : Line.IsContent line.text)
    (valid : Valid line statement instruction shape) (only : statement.operands = [operand])
    (label : operand.value = .label name) :
    ∃ gap, Single line.text statement.mnemonic gap (':' :: name) ∧ Text.isName name = true ∧
      operand.start = (statement.mnemonic ++ gap).length ∧ operand.stop = line.text.length := by
  obtain ⟨lead, core, gap, trail, whole, leading, trailing, single, named, start, stop⟩ :=
    exists_single valid.read valid.known only label
  have trimmed := text.trimmed
  rw [whole] at trimmed
  obtain rfl := Scan.front_eq_nil trimmed leading
  rw [List.nil_append] at whole trimmed
  obtain rfl := Scan.back_eq_nil trimmed trailing
  rw [whole, List.append_nil]
  exact ⟨gap, single, named, start, stop⟩

namespace Single

variable {text mnemonic gap written : Text} {value : Operand.Value}

theorem replaced (single : Single text mnemonic gap written) (other : Text) :
    Single (mnemonic ++ (gap ++ other)) mnemonic gap other :=
  ⟨single.word, rfl, single.spaces, single.some_space⟩

theorem isContent (single : Single text mnemonic gap written) (spelled : value.Spelled written) :
    Line.IsContent text := by
  obtain ⟨nonempty, visible⟩ := spelled.visible
  rw [single.whole]
  cases single.word with
  | word valid other =>
    refine isContent_of_name valid ?_ ?_
    · refine Text.getLast?_append_visible (fun empty => absurd empty nonempty) fun c last => ?_
      exact (visible c (List.mem_of_getLast? last)).1
    · intro member
      rcases List.mem_append.mp member with inGap | inOperand
      · exact absurd (single.spaces ';' inGap) (by decide)
      · exact (visible ';' inOperand).2 rfl

theorem blank_of_head? (single : Single text mnemonic gap written) (rest : Text) :
    ∀ c, (gap ++ rest).head? = some c → Text.isBlank c = true := by
  intro c head
  obtain ⟨d, more, rfl⟩ := List.exists_cons_of_ne_nil single.some_space
  cases head
  exact Scan.isBlank_of_isSpace (single.spaces c List.mem_cons_self)

theorem apart (single : Single text mnemonic gap written) (rest : Text) : Scan.Apart (gap ++ rest) :=
  Scan.apart_gap single.spaces single.some_space rest

theorem read (single : Single line.text mnemonic gap written) (spelled : value.Spelled written)
    (content : line.body = .content) :
    ∃ operand, Statement.read line = .ok ⟨mnemonic, [operand], line⟩ ∧
      operand.value.placeless = value := by
  obtain ⟨own, tiledOwn, readOwn⟩ := Operand.tiled_operand spelled Scan.apart_nil
    (@Tiled.spaces (0 + mnemonic.length + gap.length + written.length) [] (by simp))
  have tiled := Scan.tiled_lexeme single.word (.inr (single.apart _)) (Scan.tiled_gap single.spaces tiledOwn)
  rw [List.append_nil, ← single.whole, List.append_nil] at tiled
  have there : line.text.drop (0 + mnemonic.length + gap.length) = written ++ [] := by
    rw [single.whole, Nat.zero_add, ← List.drop_drop, List.drop_left, List.drop_left,
      List.append_nil]
  obtain ⟨operand, derived, denotes, -⟩ := readOwn line.text there
  have listed : Operand.Listed line.text own [operand] := by
    simpa using Operand.Listed.operand derived .nil
  refine ⟨operand, Statement.read_eq_ok_iff.mpr ⟨content, _, own, _, _, tiled, rfl, listed, ?_⟩,
    denotes⟩
  cases single.word with
  | word valid other => rw [single.whole, firstWord_name valid (single.blank_of_head? written)]

end Single

theorem render_resolvedTo {operand : Operand} {before target after : Text}
    (whole : statement.text = before ++ (target ++ after)) (start : operand.start = before.length)
    (stop : operand.stop = (before ++ target).length) (value : Int) :
    Statement.render { statement with operands := [operand.resolvedTo value] } =
      before ++ (Numeral.decimal value ++ after) := by
  have kept : statement.text.take operand.start = before := by rw [whole, start, List.take_left]
  have left : statement.text.drop operand.stop = after := by
    rw [whole, stop, ← List.append_assoc, List.drop_left]
  simp only [render, Operand.lastFirst, List.foldr_cons, List.foldr_nil, Operand.insertByStart,
    List.foldl_cons, List.foldl_nil, Operand.resolvedTo, Operand.splice, if_true]
  rw [← kept, ← left, List.append_assoc]
  rfl

theorem Single.render_resolvedTo {operand : Operand} {gap target : Text}
    (single : Single statement.text statement.mnemonic gap target)
    (start : operand.start = (statement.mnemonic ++ gap).length)
    (stop : operand.stop = statement.text.length) (value : Int) :
    Statement.render { statement with operands := [operand.resolvedTo value] } =
      statement.mnemonic ++ (gap ++ Numeral.decimal value) := by
  have whole : statement.text = (statement.mnemonic ++ gap) ++ (target ++ []) := by
    rw [List.append_nil, List.append_assoc, single.whole]
  rw [whole, List.append_nil] at stop
  rw [Statement.render_resolvedTo whole start stop, List.append_nil, List.append_assoc]

theorem unresolved_of_read (read : Statement.read line = .ok statement) :
    ∀ operand ∈ statement.operands, operand.resolved = false := by
  obtain ⟨-, first, tokens, operands, word, tiled, isWord, listed, rfl⟩ :=
    Statement.read_eq_ok_iff.mp read
  have unresolved {own : List Token} {operand : Operand}
      (derived : Operand.Derived line.text own operand) : operand.resolved = false := by
    cases derived <;> rfl
  have continued {own : List Token} {operands : List Operand}
      (continued : Operand.Continued line.text own operands) :
      ∀ operand ∈ operands, operand.resolved = false := by
    induction continued with
    | nil => exact nofun
    | operand derived rest ih => exact List.forall_mem_cons.mpr ⟨unresolved derived, ih⟩
    | comma isComma derived rest ih => exact List.forall_mem_cons.mpr ⟨unresolved derived, ih⟩
  cases listed with
  | nil => exact nofun
  | operand derived rest => exact List.forall_mem_cons.mpr ⟨unresolved derived, continued rest⟩

theorem render_of_unresolved (unresolved : ∀ operand ∈ statement.operands, operand.resolved = false) :
    statement.render = statement.text := by
  have kept {operands : List Operand} {text : Text}
      (unresolved : ∀ operand ∈ operands, operand.resolved = false) :
      operands.foldl Operand.splice text = text := by
    induction operands with
    | nil => rfl
    | cons operand rest ih =>
      rw [List.forall_mem_cons] at unresolved
      rw [List.foldl_cons, Operand.splice, unresolved.1, if_neg Bool.false_ne_true,
        ih unresolved.2]
  exact kept fun operand member => unresolved operand (Operand.mem_of_mem_lastFirst member)

theorem render_of_read (read : Statement.read line = .ok statement) :
    statement.render = line.text := by
  rw [render_of_unresolved (unresolved_of_read read), Statement.text, line_of_read read]

/-- The lines of a statement at a place, told by the characters of the line it was read from. -/
inductive Rendered (table : SymbolTable) (place : Nat) (line : Line) (statement : Statement)
    (instruction : Instruction) : Shape → List Text → Prop
  | verbatim {shape : Shape} (real : instruction.pseudo = none)
    (unlabelled : shape.any Slot.isLabel = false) :
    Rendered table place line statement instruction shape [line.text]
  | absolute {gap name : Text} {symbol : Symbol} (real : instruction.pseudo = none)
    (jump : statement.mnemonic = "br" ∨ statement.mnemonic = "call")
    (values : statement.operands.map Operand.value = [.label name])
    (single : Single line.text statement.mnemonic gap (':' :: name))
    (bound : table.find? name = some symbol) :
    Rendered table place line statement instruction [.address]
      [statement.mnemonic ++ (gap ++ Numeral.decimalNat symbol.address)]
  | relative {gap name : Text} {symbol : Symbol} (real : instruction.pseudo = none)
    (branch : statement.mnemonic = "brr")
    (values : statement.operands.map Operand.value = [.label name])
    (single : Single line.text statement.mnemonic gap (':' :: name))
    (bound : table.find? name = some symbol)
    (near : signed12Range.contains (symbol.address - place) = true) :
    Rendered table place line statement instruction [.relative]
      [statement.mnemonic ++ (gap ++ Numeral.decimal (symbol.address - place))]
  | expanded {shape : Shape} {pseudo : Pseudo} {instructions : List InstructionText}
    (stands : instruction.pseudo = some pseudo) (unlabelled : shape.any Slot.isLabel = false)
    (expanded : Expansion.ofPseudo statement.operands pseudo = .ok instructions) :
    Rendered table place line statement instruction shape
      (instructions.map InstructionText.render)
  | loaded {index : Nat} {name : Text} {symbol : Symbol} (stands : instruction.pseudo = some .load)
    (load : statement.mnemonic = "ld") (small : index < Machine.registerCount)
    (values : statement.operands.map Operand.value = [.register index, .label name])
    (bound : table.find? name = some symbol) :
    Rendered table place line statement instruction [.register, .address]
      ((Expansion.load (Expansion.registerPart index).2 symbol.address).map InstructionText.render)

section
variable {table : SymbolTable} {place : Nat} {resolved : Statement} {texts : List Text}

theorem rendered_of_real (text : Line.IsContent line.text)
    (valid : Valid line statement instruction shape) (real : instruction.pseudo = none)
    (resolution : Resolution table place statement shape resolved) :
    Rendered table place line statement instruction shape [resolved.render] := by
  have shapes := Instruction.labelled_shapes valid.mem_catalog valid.takes.1
  rw [valid.mnemonic_eq] at shapes
  cases resolution with
  | plain unlabelled =>
    rw [render_of_read valid.read]
    exact .verbatim real unlabelled
  | address only label bound =>
    obtain ⟨gap, single, -, start, stop⟩ := single_of_label text valid only label
    have written := Single.render_resolvedTo (valid.text_eq ▸ single) start (valid.text_eq ▸ stop)
    rcases shapes rfl with ⟨-, -, jump⟩ | ⟨wrong, -⟩ | ⟨wrong, -⟩
    · rw [written, Numeral.decimal_natCast]
      exact .absolute real jump (by rw [only, List.map_singleton, label]) single bound
    · cases wrong
    · cases wrong
  | relative only label bound near =>
    obtain ⟨gap, single, -, start, stop⟩ := single_of_label text valid only label
    have written := Single.render_resolvedTo (valid.text_eq ▸ single) start (valid.text_eq ▸ stop)
    rcases shapes rfl with ⟨wrong, -⟩ | ⟨-, -, branch⟩ | ⟨wrong, -⟩
    · cases wrong
    · rw [written]
      exact .relative real branch (by rw [only, List.map_singleton, label]) single bound near
    · cases wrong
  | load both register label bound =>
    -- only a pseudo-instruction loads a label
    rcases shapes rfl with ⟨wrong, -⟩ | ⟨wrong, -⟩ | ⟨-, stands, -⟩
    · cases wrong
    · cases wrong
    · cases real.symm.trans stands

theorem rendered_of_pseudo {pseudo : Pseudo} {instructions : List InstructionText}
    (valid : Valid line statement instruction shape) (stands : instruction.pseudo = some pseudo)
    (resolution : Resolution table place statement shape resolved)
    (expanded : Expansion.ofPseudo resolved.operands pseudo = .ok instructions) :
    Rendered table place line statement instruction shape
      (instructions.map InstructionText.render) := by
  have shapes := Instruction.labelled_shapes valid.mem_catalog valid.takes.1
  rw [valid.mnemonic_eq] at shapes
  cases resolution with
  | plain unlabelled => exact .expanded stands unlabelled expanded
  | address | relative =>
    rcases shapes rfl with ⟨-, real, -⟩ | ⟨-, real, -⟩ | ⟨wrong, -⟩
    · cases stands.symm.trans real
    · cases stands.symm.trans real
    · cases wrong
  | @load target operand index name symbol both register label bound =>
    rcases shapes rfl with ⟨wrong, -⟩ | ⟨wrong, -⟩ | ⟨-, load, ld⟩
    · cases wrong
    · cases wrong
    · cases stands.symm.trans load
      have values : statement.operands.map Operand.value = [.register index, .label name] := by
        rw [both, List.map_cons, List.map_singleton, register, label]
      have small : index < Machine.registerCount :=
        valid.admits.registers (.register index) (by rw [values]; simp) index rfl
      have first := @Expansion.registerAt_eq [target, operand.resolvedTo symbol.address] 0 index
        (by simp [register]) small
      have second := @Expansion.numberAt_eq [target, operand.resolvedTo symbol.address] 1
        symbol.address rfl
      rw [Expansion.ofPseudo, first, second] at expanded
      cases expanded
      exact .loaded load ld small values bound

theorem Writes.rendered (text : Line.IsContent line.text)
    (valid : Valid line statement instruction shape)
    (writes : Writes table place statement instruction shape texts) :
    Rendered table place line statement instruction shape texts := by
  cases writes with
  | real real resolution => exact rendered_of_real text valid real resolution
  | expanded stands resolution expanded => exact rendered_of_pseudo valid stands resolution expanded

end

end Statement

end TwoPass
