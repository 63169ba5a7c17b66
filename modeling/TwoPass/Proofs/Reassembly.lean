import TwoPass.Proofs.DataItem
import TwoPass.Proofs.Executable
import TwoPass.Proofs.Extent
import TwoPass.Proofs.Session
import TwoPass.Proofs.Text.LineBreak

/-! Assembling the output once more.

Without label lines and without jumps to numbers the output is a program of directives, instructions
and data items. Each of its lines is placed as it stands and written as it was, so the output is
assembled to itself. -/

set_option autoImplicit false

namespace TwoPass

structure Settled (text : Text) : Prop where
  content : Line.IsContent text
  unbroken : Text.Unbroken text
  resolves : ∀ (line : Line) (table : SymbolTable), line.text = text →
    line.resolveData table = .ok text

/-- Texts that stay as they are when they are assembled in a section. -/
def Stays : Section → Text → Prop
  | .code, text => Primitive text
  | .data, text => Settled text

theorem Scan.Tiled.unbroken {position : Nat} {text : Text} {tokens : List Token}
    (tiled : Scan.Tiled position text tokens) : Text.Unbroken text := by
  intro c member
  rcases tiled.visible c member with space | ⟨visible, -⟩
  · simp only [Scan.isSpace, Bool.or_eq_true, beq_iff_eq] at space
    rcases space with rfl | rfl <;> rfl
  · exact Text.not_isLineBreak_of_not_isBlank visible

theorem Primitive.unbroken {text : Text} (primitive : Primitive text) : Text.Unbroken text := by
  obtain ⟨statement, -, -, read, -⟩ :=
    primitive.reads ⟨[], 0, text, 0, text, .content⟩ rfl rfl
  obtain ⟨-, _, _, _, _, tiled, -⟩ := Statement.read_eq_ok_iff.mp read
  exact tiled.unbroken

theorem Line.mem_of_mem_text {raw file : Text} {number : Int} {line : Line} {c : Char}
    (read : Line.read raw file number = .ok line) (content : line.body = .content)
    (member : c ∈ line.text) : c ∈ raw := by
  obtain ⟨-, -, -, -, -, text⟩ := read_eq_ok_iff.mp read
  rw [text, if_pos content] at member
  exact Text.trimEnd_subset (Text.mem_of_mem_trim (Text.mem_of_mem_upTo (Text.trimEnd_subset member)))

theorem Line.settled_of_resolveData {raw file : Text} {number : Int} {line : Line}
    {table : SymbolTable} {text : Text} (unbroken : Text.Unbroken raw)
    (read : Line.read raw file number = .ok line) (content : line.body = .content)
    (resolved : line.resolveData table = .ok text) : Settled text := by
  have item := dataWritten_of_resolveData resolved
  refine ⟨item.isContent (isContent_of_read read content), ?_, ?_⟩
  · intro c member
    rw [item.written] at member
    rcases item.pieces.mem_written member with inside | digit
    · exact unbroken c (mem_of_mem_text read content inside)
    · exact Text.not_isLineBreak_of_not_isBlank
        (Text.not_isBlank_of_isNameChar (Text.isNameChar_of_isDigit digit))
  · exact fun other table same => item.resolveData_eq same table

theorem Sectioned.unbroken {inside : Option Section} {output : List OutputLine}
    (sectioned : Sectioned false Stays inside output) :
    ∀ line ∈ output.map OutputLine.render, Text.Unbroken line := by
  have indented {text : Text} (whole : Text.Unbroken text) :
      Text.Unbroken (OutputLine.indented text).render :=
    List.forall_mem_cons.mpr ⟨rfl, whole⟩
  induction sectioned with
  | nil => exact fun line member => absurd member List.not_mem_nil
  | @directive inside target output changes rest ih =>
    have whole : Text.Unbroken (OutputLine.directive target).render :=
      Text.unbroken_of_all (by cases target <;> rfl)
    exact List.forall_mem_cons.mpr ⟨whole, ih⟩
  | label kept => cases kept
  | @indented target text output stays rest ih =>
    refine List.forall_mem_cons.mpr ⟨indented ?_, ih⟩
    cases target with
    | code => exact Primitive.unbroken stays
    | data => exact Settled.unbroken stays

/-- An output line that is placed, when it is read behind others, such that it makes no diagnostic,
binds no label and is written as it is. -/
structure Reproduces (settings : Settings) (file : Text) (cursor : Cursor) (line : OutputLine)
    (placement : Placement) : Prop where
  number : placement.number = cursor.number
  address : placement.address = cursor.address
  placed : Placed file cursor.number cursor.inside line.render placement.inside placement.entry
  quiet : ∀ pass : FirstPass, pass.observe placement = (pass, none)
  emits : ∃ emission, Emission.ofPlacement settings ⟨[], true⟩ placement = .ok emission ∧
    emission.outputLines cursor.inside = [line] ∧
    emission.sectionAfter cursor.inside = placement.inside

namespace Reproduces

variable (settings : Settings) (file : Text) (number address : Nat)

theorem directive {inside : Option Section} {target : Section} (changes : inside ≠ some target) :
    ∃ placement, Reproduces settings file ⟨number, inside, address⟩ (.directive target) placement ∧
      placement.inside = some target := by
  obtain ⟨line, read, body⟩ : ∃ line,
      Line.read (OutputLine.directive target).render file number = .ok line ∧
        line.body = .directive target := by
    cases target <;> exact ⟨_, rfl, rfl⟩
  have other : line.body ≠ .content := by
    rw [body]
    exact Line.Body.noConfusion
  have leads : line.sectionAfter inside = some target := by simp only [Line.sectionAfter, body]
  refine ⟨⟨number, line.sectionAfter inside, address, .passive line⟩, ⟨rfl, rfl, ?_, ?_, ?_⟩, leads⟩
  · exact .passive read other
  · intro pass
    simp only [FirstPass.observe, body]
  · refine ⟨.directive target, ?_, if_neg changes, leads.symm⟩
    simp only [Emission.ofPlacement, body]

theorem item {text : Text} (settled : Settled text) :
    ∃ placement, Reproduces settings file ⟨number, some .data, address⟩ (.indented text) placement ∧
      placement.inside = some .data := by
  have read := OutputLine.read_indented settled.content file number
  refine ⟨⟨number, some .data, address, .item ⟨file, number, '\t' :: text, 1, text, .content⟩⟩,
    ⟨rfl, rfl, ?_, ?_, ?_⟩, rfl⟩
  · exact .item read rfl rfl
  · exact fun pass => rfl
  · have resolved := settled.resolves ⟨file, number, '\t' :: text, 1, text, .content⟩ ⟨[], true⟩ rfl
    refine ⟨.lines text [text], ?_, rfl, rfl⟩
    simp only [Emission.ofPlacement, Emission.ofItem, resolved]

theorem code {text : Text} (primitive : Primitive text) :
    ∃ placement, Reproduces settings file ⟨number, some .code, address⟩ (.indented text) placement ∧
      placement.inside = some .code := by
  have read := OutputLine.read_indented primitive.content file number
  obtain ⟨statement, instruction, shape, statementRead, known, real, check, unlabelled⟩ :=
    primitive.reads ⟨file, number, '\t' :: text, 1, text, .content⟩ rfl rfl
  have valid : Statement.Valid _ statement instruction shape := ⟨rfl, statementRead, known, check⟩
  refine ⟨⟨number, some .code, address, .code statement instruction shape⟩,
    ⟨rfl, rfl, ?_, ?_, ?_⟩, rfl⟩
  · exact .code read rfl valid
  · exact fun pass => rfl
  · have resolved : statement.resolve ⟨[], true⟩ shape address = .ok statement := by
      rw [Statement.resolve, unlabelled]
      rfl
    refine ⟨.lines statement.text [statement.render], ?_, ?_, rfl⟩
    · simp only [Emission.ofPlacement, Emission.ofCode, resolved, real]
      rfl
    · rw [Statement.render_of_read statementRead]
      rfl

end Reproduces

def Reproduced (settings : Settings) (file : Text) (cursor : Cursor) (output : List OutputLine) : Prop :=
  ∃ placements listing finish,
    Laid file cursor (output.map OutputLine.render) placements finish ∧
    Emitted settings ⟨[], true⟩ cursor.inside placements output listing ∧
    ∀ placement ∈ placements, ∀ pass : FirstPass, pass.observe placement = (pass, none)

theorem Reproduces.cons {settings : Settings} {file : Text} {cursor : Cursor} {line : OutputLine}
    {placement : Placement} {output : List OutputLine}
    (first : Reproduces settings file cursor line placement)
    (rest : Reproduced settings file placement.after output) :
    Reproduced settings file cursor (line :: output) := by
  obtain ⟨placements, listing, finish, laid, emitted, quiet⟩ := rest
  obtain ⟨emission, emits, written, leads⟩ := first.emits
  rw [Placement.after, ← leads] at emitted
  have all := Emitted.cons emits emitted
  rw [written] at all
  exact ⟨_, _, finish, .cons first.number first.address first.placed laid, all,
    List.forall_mem_cons.mpr ⟨first.quiet, quiet⟩⟩

theorem Sectioned.reproduced {inside : Option Section} {output : List OutputLine}
    (sectioned : Sectioned false Stays inside output) (settings : Settings) (file : Text)
    (number address : Nat) : Reproduced settings file ⟨number, inside, address⟩ output := by
  induction sectioned generalizing number address with
  | nil =>
    exact ⟨[], [], _, .nil _, .nil, fun placement member => absurd member List.not_mem_nil⟩
  | directive changes rest ih =>
    obtain ⟨placement, first, leads⟩ := Reproduces.directive settings file number address changes
    refine first.cons ?_
    rw [Placement.after, leads]
    exact ih _ _
  | label kept => cases kept
  | @indented target text output stays rest ih =>
    obtain ⟨placement, first, leads⟩ : ∃ placement,
        Reproduces settings file ⟨number, some target, address⟩ (.indented text) placement ∧
          placement.inside = some target := by
      cases target with
      | code => exact Reproduces.code settings file number address stays
      | data => exact Reproduces.item settings file number address stays
    refine first.cons ?_
    rw [Placement.after, leads]
    exact ih _ _

namespace Source

def isLabelJump (raw : Text) : Bool :=
  match line? raw with
  | none => false
  | some line =>
    match Statement.read line with
    | .error _ => false
    | .ok statement => statement.isLabelJump

def jumpsToLabel (inside : Option Section) : List Text → Bool
  | [] => false
  | raw :: rest =>
    (decide (inside = some .code) && isLabelJump raw) || jumpsToLabel (sectionAfter inside raw) rest

theorem isLabelJump_of_valid {raw file : Text} {number : Int} {line : Line} {statement : Statement}
    {instruction : Instruction} {shape : Shape} (read : Line.read raw file number = .ok line)
    (valid : Statement.Valid line statement instruction shape) :
    isLabelJump raw = statement.isLabelJump := by
  have there := @Statement.Valid.relocated _ _ _ _ valid { line with file := [], number := 0 } rfl
    valid.content
  simp only [isLabelJump, line?_eq_some read, there.read]
  rfl

end Source

theorem Laid.isLabelJump_eq_false {file : Text} {start finish : Cursor} {lines : List Text}
    {placements : List Placement} (laid : Laid file start lines placements finish)
    (straight : Source.jumpsToLabel start.inside lines = false) :
    ∀ placement ∈ placements, ∀ statement instruction shape,
      placement.entry = .code statement instruction shape → statement.isLabelJump = false := by
  induction laid with
  | nil => exact fun placement member => absurd member List.not_mem_nil
  | @cons cursor finish raw rest placement placements number address placed laid ih =>
    rw [Source.jumpsToLabel, Bool.or_eq_false_iff, ← placed.section_eq] at straight
    refine List.forall_mem_cons.mpr ⟨?_, ih straight.2⟩
    intro statement instruction shape entry
    rw [entry] at placed
    generalize placement.inside = after at placed
    cases placed with
    | code read code valid =>
      rw [← Source.isLabelJump_of_valid read valid]
      simpa [code] using straight.1

namespace Run

variable {settings : Settings} {file : Text}

theorem Assembled.stays {lines : List Text} {run : Run} {placements : List Placement}
    {finish : Cursor} (assembled : Assembled settings file lines run placements finish)
    (plain : settings.keepLabels = false) (strict : settings.allowUndefined = false)
    (unbroken : ∀ raw ∈ lines, Text.Unbroken raw)
    (straight : Source.jumpsToLabel none lines = false) : Sectioned false Stays none run.output := by
  rw [← plain]
  refine (assembled.transcribed (.inl strict)).sectioned ?_ ?_
  · intro raw member number line text read content resolved
    exact Line.settled_of_resolveData (unbroken raw member) read content resolved
  · intro placement member line statement instruction shape texts entry content valid writes text
      written
    rcases writes.primitive_or_jump (fun _ _ => assembled.address_le) content valid text written
      with primitive | ⟨-, jump⟩
    · exact primitive
    · have unlabelled := assembled.laid.isLabelJump_eq_false straight placement member _ _ _ entry
      cases unlabelled.symm.trans jump

/-- Lines that stay as they are, assembled as a program. -/
theorem ofLines_of_stays {output : List OutputLine} (strict : settings.allowUndefined = false)
    (stays : Sectioned false Stays none output) :
    let run := Run.ofLines settings file (output.map OutputLine.render)
    run.result = .ok (output.map OutputLine.render) ∧
      run.finish = (settings.start.reader.readAll (output.map OutputLine.render)).address ∧
      run.report.diagnostics = [] ∧ run.symbols.symbols = [] := by
  obtain ⟨placements, listing, finish, laid, emitted, quiet⟩ :=
    stays.reproduced settings file 1 settings.base
  have silent : ∀ placement ∈ placements, ∀ emission,
      Emission.ofPlacement settings ⟨[], true⟩ placement = .ok emission → emission.told = [] :=
    fun placement member emission emits => Emission.told_of_strict strict emits
  have transcribed := transcribed_of_laid laid emitted silent
  obtain ⟨result, ended, nothing⟩ := ofLines_of_quiet laid quiet emitted silent
  refine ⟨result, ended.trans ?_, nothing⟩
  exact (congrArg OutputReader.address transcribed.readAll_eq).symm

end Run

namespace Session

variable {session again : Session} {file otherFile source : Text} {output : List Text}

/-- The output of a text that is assembled without label lines and without undefined labels, and in
which no line of code jumps to a label: its text has the output lines as its lines, and it is
assembled to the same lines again, of the same size, without a diagnostic and without a symbol. -/
theorem output_reassembles (plain : session.settings.keepLabels = false)
    (strict : session.settings.allowUndefined = false) (same : again.settings = session.settings)
    (returned : (session.assembleText file source).run.result = .ok output)
    (straight : Source.jumpsToLabel none (Text.splitLines source) = false) :
    let first := session.assembleText file source
    let second := again.assembleText otherFile first.run.outputText
    Text.splitLines first.run.outputText = output ∧ second.run.result = .ok output ∧
      second.codeSize = first.codeSize ∧ second.run.report.diagnostics = [] ∧
      second.run.symbols.symbols = [] := by
  dsimp only
  rw [codeSize, codeSize, settings_assembleText, settings_assembleText, same]
  rw [run_assembleText, run_assembleText, same]
  rw [run_assembleText] at returned
  obtain ⟨outcome, rfl⟩ := Run.outcome_of_result returned
  obtain ⟨placements, finish, assembled⟩ := Run.assembled_of_outcome outcome
  have stays := assembled.stays plain strict (Text.unbroken_of_mem_splitLines source) straight
  have transcribed := assembled.transcribed (.inl strict)
  have split : Text.splitLines (Run.ofLines session.settings file (Text.splitLines source)).outputText =
      (Run.ofLines session.settings file (Text.splitLines source)).outputLines :=
    Text.splitLines_flatMap stays.unbroken
  obtain ⟨result, ended, diagnostics, symbols⟩ := @Run.ofLines_of_stays _ otherFile _ strict stays
  rw [split]
  refine ⟨rfl, result, ?_, diagnostics, symbols⟩
  -- both layouts end where a reader of the output ends
  have finished : finish.address = _ := (congrArg OutputReader.address transcribed.readAll_eq).symm
  rw [Run.codeSize, Run.codeSize, assembled.ended, finished]
  exact congrArg (· - session.settings.base) ended

/-- Two kinds of line break, a comment, pseudo-instructions, a branch back and an item in which only
the last of four colons begins a reference. -/
theorem output_reassembles_mixed :
    let source : Text := ".code\r\n:TOP\n  push r1 ; save\nld r2, :END\nbrr :TOP\n" ++
      ".data\nx:TOP ::TOP :END é\n:END\n7"
    let first := (Session.start {}).assembleText "demo" source
    let second := first.assembleText "again" first.run.outputText
    Source.jumpsToLabel none (Text.splitLines source) = false ∧
    first.run.result = .ok first.run.outputLines ∧
    Text.splitLines first.run.outputText = first.run.outputLines ∧
    second.run.result = .ok first.run.outputLines ∧ second.codeSize = first.codeSize ∧
    second.run.report.diagnostics = [] ∧ second.run.symbols.symbols = [] := by
  intro source
  have returned : ((Session.start {}).assembleText "demo" source).run.result =
      .ok ((Session.start {}).assembleText "demo" source).run.outputLines := by rfl
  have straight : Source.jumpsToLabel none (Text.splitLines source) = false := by decide +kernel
  have same := settings_assembleText (Session.start {}) "demo" source
  have stable := @output_reassembles (Session.start {}) _ "demo" "again" source _ rfl rfl same
    returned straight
  exact ⟨straight, returned, stable⟩

end Session

end TwoPass
