import TwoPass.Proofs.OutputLayout
import TwoPass.Proofs.Substitution

/-! The code lines of the output, put back through the reader.

Whatever a line of code is written as, be it the line itself, the line with a number in place of a
label or the instructions that a pseudo-instruction stands for, is read as an instruction of the
machine. All of these pass the check, except that the check knows no jump to a number. -/

set_option autoImplicit false

namespace TwoPass

/-- The tab in front of an indented line is not part of its content. -/
theorem OutputLine.read_indented {text : Text} (content : Line.IsContent text) (file : Text)
    (number : Int) : Line.read (OutputLine.indented text).render file number =
      .ok ⟨file, number, '\t' :: text, 1, text, .content⟩ :=
  @Line.read_blanks_append ['\t'] text content (List.forall_mem_singleton.mpr rfl) file number

structure NumericJump (text : Text) : Prop where
  content : Line.IsContent text
  reads : ∀ line : Line, line.text = text → line.body = .content →
    ∃ statement instruction value, Statement.read line = .ok statement ∧
      Instruction.find? statement.mnemonic = some instruction ∧ instruction.isPseudo = false ∧
      (statement.mnemonic = "br" ∨ statement.mnemonic = "call") ∧
      statement.operands.map Operand.value = [.immediate value] ∧
      0 ≤ value ∧ value ≤ Machine.maxAddress

def Operand.Value.isLabel : Operand.Value → Bool
  | .label _ => true
  | _ => false

def Statement.isLabelJump (statement : Statement) : Bool :=
  decide (statement.mnemonic = "br" ∨ statement.mnemonic = "call") &&
    statement.operands.any (·.value.isLabel)

namespace Statement

variable {line : Line} {statement : Statement} {instruction : Instruction} {shape : Shape}

theorem Valid.primitive (valid : Valid line statement instruction shape)
    (text : Line.IsContent line.text) (real : instruction.pseudo = none)
    (unlabelled : shape.any Slot.isLabel = false) : Primitive line.text := by
  refine ⟨text, fun other same content => ?_⟩
  have there := valid.relocated same content
  refine ⟨_, instruction, shape, there.read, valid.known, ?_, there.check, unlabelled⟩
  rw [Instruction.isPseudo, real]
  rfl

namespace Single

variable {text mnemonic gap : Text} {value : Int}

theorem read_number (single : Single line.text mnemonic gap (Numeral.decimal value))
    (short : (Numeral.decimalNat value.natAbs).length ≤ Numeral.digitLimit)
    (content : line.body = .content) :
    ∃ operand, Statement.read line = .ok ⟨mnemonic, [operand], line⟩ ∧
      operand.value = .immediate value := by
  obtain ⟨operand, read, denotes⟩ := single.read (.immediate (.ofInt short)) content
  exact ⟨operand, read, Operand.Value.eq_immediate_of_placeless denotes⟩

theorem isContent_number (single : Single text mnemonic gap (Numeral.decimal value))
    (short : (Numeral.decimalNat value.natAbs).length ≤ Numeral.digitLimit) :
    Line.IsContent text :=
  single.isContent (.immediate (.ofInt short))

theorem numericJump {address : Nat} (single : Single text mnemonic gap (Numeral.decimalNat address))
    (jump : mnemonic = "br" ∨ mnemonic = "call") (addressed : address ≤ Machine.maxAddress) :
    NumericJump text := by
  have short := Numeral.short_of_le_maxAddress addressed
  rw [← Numeral.decimal_natCast] at single
  refine ⟨single.isContent_number short, fun line same content => ?_⟩
  obtain ⟨operand, read, number⟩ := (same ▸ single).read_number short content
  have known : Instruction.find? mnemonic = some (.jump mnemonic) := by
    rcases jump with rfl | rfl <;> rfl
  refine ⟨_, _, address, read, known, rfl, jump, ?_, by omega, by omega⟩
  rw [List.map_singleton, number]

theorem primitive (single : Single text "brr" gap (Numeral.decimal value))
    (near : signed12Range.contains value = true) : Primitive text := by
  obtain ⟨low, high⟩ := Range.contains_iff.mp near
  have short : (Numeral.decimalNat value.natAbs).length ≤ Numeral.digitLimit := by
    refine Numeral.short_of_le_maxAddress ?_
    dsimp only [signed12Range] at low high
    rw [Machine.maxAddress]
    omega
  refine ⟨single.isContent_number short, fun line same content => ?_⟩
  obtain ⟨operand, read, number⟩ := (same ▸ single).read_number short content
  refine ⟨_, _, [.signed12], read, rfl, rfl, check_eq_ok_iff.mpr ⟨_, rfl, ?_⟩, rfl⟩
  rw [List.map_singleton, number]
  have fits : Slot.signed12.Fits (.immediate value) := by
    intro range found
    cases found
    exact near
  exact ⟨rfl, by simp [Operand.Value.register?], by simpa using fits⟩

end Single

/-- The lines of a statement are instructions, and for a jump to a label a jump to its address. -/
theorem Writes.primitive_or_jump {table : SymbolTable} {place : Nat} {texts : List Text}
    (addressed : ∀ name symbol, table.find? name = some symbol → symbol.address ≤ Machine.maxAddress)
    (content : Line.IsContent line.text) (valid : Valid line statement instruction shape)
    (writes : Writes table place statement instruction shape texts) :
    ∀ text ∈ texts, Primitive text ∨ NumericJump text ∧ statement.isLabelJump = true := by
  intro text member
  have expands (stands : instruction.isPseudo = true) : Primitive text :=
    writes.primitive_of_pseudo valid stands text member
  cases writes.rendered content valid with
  | verbatim real unlabelled =>
    rw [List.mem_singleton.mp member]
    exact .inl (valid.primitive content real unlabelled)
  | absolute real jump values single bound =>
    rw [List.mem_singleton.mp member]
    refine .inr ⟨(single.replaced _).numericJump jump (addressed _ _ bound), ?_⟩
    obtain ⟨operand, only, label⟩ := List.map_eq_singleton_iff.mp values
    rw [isLabelJump, Bool.and_eq_true, decide_eq_true_iff, only]
    exact ⟨jump, by simp [label, Operand.Value.isLabel]⟩
  | relative real branch values single bound near =>
    rw [List.mem_singleton.mp member, branch]
    rw [branch] at single
    exact .inl ((single.replaced _).primitive near)
  | expanded stands => exact .inl (expands (by rw [Instruction.isPseudo, stands]; rfl))
  | loaded stands => exact .inl (expands (by rw [Instruction.isPseudo, stands]; rfl))

end Statement

/-- Output in which every indented line is allowed in its section. Directives stand where the section
changes, and label lines only if they are kept. -/
inductive Sectioned (labels : Bool) (allows : Section → Text → Prop) :
    Option Section → List OutputLine → Prop
  | nil {inside : Option Section} : Sectioned labels allows inside []
  | directive {inside : Option Section} {target : Section} {output : List OutputLine}
    (changes : inside ≠ some target) (rest : Sectioned labels allows (some target) output) :
    Sectioned labels allows inside (.directive target :: output)
  | label {inside : Option Section} {name : Text} {output : List OutputLine}
    (kept : labels = true) (valid : Text.isName name = true)
    (rest : Sectioned labels allows inside output) :
    Sectioned labels allows inside (.label name :: output)
  | indented {target : Section} {text : Text} {output : List OutputLine}
    (allowed : allows target text) (rest : Sectioned labels allows (some target) output) :
    Sectioned labels allows (some target) (.indented text :: output)

namespace Sectioned

variable {labels : Bool} {allows : Section → Text → Prop} {inside : Option Section}
  {output : List OutputLine}

theorem indented_append {target : Section} {texts : List Text}
    (allowed : ∀ text ∈ texts, allows target text)
    (rest : Sectioned labels allows (some target) output) :
    Sectioned labels allows (some target) (texts.map .indented ++ output) := by
  induction texts with
  | nil => exact rest
  | cons text more ih =>
    rw [List.forall_mem_cons] at allowed
    exact .indented allowed.1 (ih allowed.2)

theorem allowed_of_governed (sectioned : Sectioned labels allows inside output)
    {before after : List Text} {text : Text} {address : Nat} {target : Section}
    (whole : output.map OutputLine.render = before ++ ('\t' :: text) :: after)
    (governed : ((⟨inside, address⟩ : OutputReader).readAll before).inside = some target) :
    allows target text := by
  -- line by line: either it is the one in question, or it is read and the rest goes on behind it
  induction sectioned generalizing before address with
  | nil => cases before <;> cases whole
  | @directive inside own output changes rest ih =>
    cases before with
    | nil => cases whole
    | cons first more =>
      obtain ⟨rfl, others⟩ := List.cons_eq_cons.mp whole
      rw [OutputReader.readAll_cons, OutputReader.read_directive] at governed
      exact ih others governed
  | @label inside name output kept valid rest ih =>
    cases before with
    | nil =>
      have tab := OutputReader.head?_label_ne valid (show Text.isNameStart '\t' = false by decide)
      exact absurd (congrArg List.head? (List.cons_eq_cons.mp whole).1) tab
    | cons first more =>
      obtain ⟨rfl, others⟩ := List.cons_eq_cons.mp whole
      rw [OutputReader.readAll_cons, OutputReader.read_label _ valid] at governed
      exact ih others governed
  | @indented own written output allowed rest ih =>
    cases before with
    | nil =>
      cases whole
      cases governed
      exact allowed
    | cons first more =>
      obtain ⟨rfl, others⟩ := List.cons_eq_cons.mp whole
      rw [OutputReader.readAll_cons, OutputReader.read_indented] at governed
      exact ih others governed

end Sectioned

theorem Transcribed.sectioned {settings : Settings} {table : SymbolTable} {file : Text}
    {start finish : Cursor} {lines : List Text} {placements : List Placement}
    {output : List OutputLine} {listing : List ListingEntry} {allows : Section → Text → Prop}
    (items : ∀ raw ∈ lines, ∀ number line text, Line.read raw file number = .ok line →
      line.body = .content → line.resolveData table = .ok text → allows .data text)
    (code : ∀ placement ∈ placements, ∀ line statement instruction shape texts,
      placement.entry = .code statement instruction shape → Line.IsContent line.text →
      Statement.Valid line statement instruction shape →
      Statement.Writes table placement.address statement instruction shape texts →
      ∀ text ∈ texts, allows .code text)
    (transcribed : Transcribed settings table file start lines placements output listing finish) :
    Sectioned settings.keepLabels allows start.inside output := by
  induction transcribed with
  | nil => exact .nil
  | @cons cursor finish raw lines placement placements emission output listing contribution rest ih =>
    rw [List.forall_mem_cons] at items code
    have rest := ih items.2 code.2
    cases contribution with
    | nothing => exact rest
    | @directive line target read directive =>
      -- a directive for the section that is open already is not written
      by_cases same : cursor.inside = some target
      · simp only [Emission.outputLines, same, if_true]
        exact rest
      · simp only [Emission.outputLines, same, if_false]
        exact .directive same rest
    | @label line name read label =>
      generalize settings.keepLabels = kept at rest ⊢
      cases kept with
      | false => exact rest
      | true => exact .label rfl (Line.isName_of_read read label) rest
    | @item line text read content data resolved =>
      have allowed := items.1 cursor.number line text read content resolved
      rw [data]
      exact .indented allowed (data ▸ rest)
    | @code line statement instruction shape texts read inCode valid writes =>
      have allowed := code.1 line statement instruction shape texts rfl
        (Line.isContent_of_read read valid.content) valid writes
      rw [inCode]
      exact Sectioned.indented_append allowed (inCode ▸ rest)

/-- What a run may write in a section: in code nothing but instructions and jumps to numbers. -/
def Executes : Section → Text → Prop
  | .code, text => Primitive text ∨ NumericJump text
  | .data, _ => True

namespace Run

theorem Assembled.executes {settings : Settings} {file : Text} {lines : List Text} {run : Run}
    {placements : List Placement} {finish : Cursor}
    (assembled : Assembled settings file lines run placements finish)
    (resolved : settings.allowUndefined = false ∨ run.Resolved) :
    Sectioned settings.keepLabels Executes none run.output := by
  refine (assembled.transcribed resolved).sectioned ?_ ?_
  · intros
    trivial
  · intro placement member line statement instruction shape texts entry content valid writes text
      written
    have either := writes.primitive_or_jump (fun _ _ => assembled.address_le) content valid text
      written
    exact either.imp_right And.left

/-- Every indented line behind a code directive, in the output of a run that passes nothing through,
is read as an instruction that is no pseudo-instruction. It passes the check without any label, or it
is a jump to a number of 32 bits. -/
theorem code_lines_executable {settings : Settings} {file : Text} {lines output : List Text}
    (returned : (Run.ofLines settings file lines).result = .ok output)
    (resolved : settings.allowUndefined = false ∨ (Run.ofLines settings file lines).Resolved) :
    ∀ before text after, output = before ++ ('\t' :: text) :: after →
      ((⟨none, settings.base⟩ : OutputReader).readAll before).inside = some .code →
      ∀ otherFile number, ∃ line statement instruction,
        Line.read ('\t' :: text) otherFile number = .ok line ∧ line.body = .content ∧
        Statement.read line = .ok statement ∧
        Instruction.find? statement.mnemonic = some instruction ∧ instruction.isPseudo = false ∧
        ((∃ shape, statement.check = .ok shape ∧ shape.any Slot.isLabel = false ∧
            instruction.Admits shape (statement.operands.map Operand.value)) ∨
          (statement.mnemonic = "br" ∨ statement.mnemonic = "call") ∧
            ∃ value, statement.operands.map Operand.value = [.immediate value] ∧
              0 ≤ value ∧ value ≤ 0xFFFFFFFF) := by
  obtain ⟨outcome, rfl⟩ := outcome_of_result returned
  obtain ⟨placements, finish, assembled⟩ := assembled_of_outcome outcome
  intro before text after whole governed otherFile number
  rcases (assembled.executes resolved).allowed_of_governed whole governed with primitive | jump
  · obtain ⟨statement, instruction, shape, read, known, real, check, unlabelled⟩ :=
      primitive.reads ⟨otherFile, number, '\t' :: text, 1, text, .content⟩ rfl rfl
    have valid : Statement.Valid _ statement instruction shape := ⟨rfl, read, known, check⟩
    exact ⟨_, statement, instruction, OutputLine.read_indented primitive.content otherFile number,
      rfl, read, known, real, .inl ⟨shape, check, unlabelled, valid.admits⟩⟩
  · obtain ⟨statement, instruction, value, read, known, real, jumps, operands, low, high⟩ :=
      jump.reads ⟨otherFile, number, '\t' :: text, 1, text, .content⟩ rfl rfl
    exact ⟨_, statement, instruction, OutputLine.read_indented jump.content otherFile number,
      rfl, read, known, real, .inr ⟨jumps, value, operands, low, high⟩⟩

/-- A jump over a pseudo-instruction. -/
theorem code_lines_executable_forward :
    let lines : List Text := [".code", "br :END", "push r1", ":END", "halt"]
    let output : List Text :=
      [".code", "\tbr 4108", "\tsubi r31, 8", "\tmov (r31)(0), r1", "\tpriv r0, r0, r0, 0"]
    (Run.ofLines {} "demo" lines).result = .ok output ∧
    ∃ line statement instruction,
      Line.read "\tbr 4108" "again" 2 = .ok line ∧ line.body = .content ∧
      Statement.read line = .ok statement ∧
      Instruction.find? statement.mnemonic = some instruction ∧ instruction.isPseudo = false ∧
      ((∃ shape, statement.check = .ok shape ∧ shape.any Slot.isLabel = false ∧
          instruction.Admits shape (statement.operands.map Operand.value)) ∨
        (statement.mnemonic = "br" ∨ statement.mnemonic = "call") ∧
          ∃ value, statement.operands.map Operand.value = [.immediate value] ∧
            0 ≤ value ∧ value ≤ 0xFFFFFFFF) := by
  intro lines output
  have returned : (Run.ofLines {} "demo" lines).result = .ok output := by rfl
  exact ⟨returned, code_lines_executable returned (.inl rfl) [".code".toList] "br 4108"
    (output.drop 2) rfl rfl "again" 2⟩

end Run

end TwoPass
