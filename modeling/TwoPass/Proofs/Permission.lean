import TwoPass.Proofs.UndefinedLabel

/-! Programs with undefined labels, where they are allowed and where they are not.

A line with an undefined label has its own text as its share in the output if that is allowed, and no
share otherwise; all other lines have the same share under either policy. So a program that is
assembled without undefined labels is assembled to the same where they are allowed, and where they are
allowed they keep no program from being assembled. -/

set_option autoImplicit false

namespace TwoPass

/-! ### Problems on collecting -/

namespace Statement

variable {line : Line} {found : Problem}

theorem category_of_checkRegisters {operands : List Operand}
    (failed : checkRegisters line operands = .error (.problem found)) :
    found.fault.category = .registerRange := by
  induction operands with
  | nil => cases failed
  | cons operand rest ih =>
    unfold checkRegisters at failed
    split at failed
    · split at failed
      · exact ih failed
      · split at failed
        · cases failed
          rfl
        · cases failed
    · exact ih failed

theorem category_of_checkRange {value : Int} {range : Range} {what : Text} {offset : Nat}
    (failed : checkRange line value range what offset = .error (.problem found)) :
    found.fault.category = .immediateRange := by
  unfold checkRange at failed
  split at failed
  · cases failed
  · split at failed
    · cases failed
      rfl
    · cases failed

theorem category_of_checkRanges {pairs : List (Slot × Operand)}
    (failed : checkRanges line pairs = .error (.problem found)) :
    found.fault.category = .immediateRange := by
  induction pairs with
  | nil => cases failed
  | cons pair rest ih =>
    rcases Except.bind_eq_error_iff.mp failed with first | ⟨_, -, others⟩
    · unfold checkSlot at first
      split at first
      · exact category_of_checkRange first
      · cases first
      · split at first
        · cases first
        · cases first
        · cases first
        · exact category_of_checkRange first
    · exact ih others

theorem category_of_check {statement : Statement}
    (failed : statement.check = .error (.problem found)) :
    found.fault.category ≠ .undefinedLabel := by
  unfold check at failed
  split at failed
  · cases failed
    nofun
  next instruction known =>
  rcases Except.bind_eq_error_iff.mp failed with registers | ⟨_, -, rest⟩
  · rw [category_of_checkRegisters registers]
    nofun
  split at rest
  · cases rest
    unfold shapeProblem
    dsimp only
    split <;> nofun
  · rcases Except.bind_eq_error_iff.mp rest with ranges | ⟨_, -, impossible⟩
    · rw [category_of_checkRanges ranges]
      nofun
    · cases impossible

theorem category_of_misread (line : Line) (misreading : Misreading) :
    (misread line misreading).fault.category ≠ .undefinedLabel := by
  unfold misread
  dsimp only
  split <;> nofun

theorem category_of_read (failed : Statement.read line = .error (.problem found)) :
    found.fault.category ≠ .undefinedLabel := by
  unfold Statement.read at failed
  split at failed
  · cases failed
  dsimp only at failed
  split at failed
  · cases failed
  · cases failed
    exact category_of_misread line _
  · split at failed
    · cases failed
      exact category_of_misread line _
    · cases failed

end Statement

theorem Entry.category_of_ofCode {line : Line} {found : Problem}
    (failed : Entry.ofCode line = .error (.problem found)) :
    found.fault.category ≠ .undefinedLabel := by
  unfold Entry.ofCode at failed
  split at failed
  · next fault unknown =>
    cases failed
    unfold Instruction.ofContent at unknown
    dsimp only at unknown
    split at unknown
    · cases unknown
    · cases unknown
      nofun
  rcases Except.bind_eq_error_iff.mp failed with unread | ⟨statement, -, rest⟩
  · exact Statement.category_of_read unread
  rcases Except.bind_eq_error_iff.mp rest with unchecked | ⟨shape, -, impossible⟩
  · exact Statement.category_of_check unchecked
  · cases impossible

theorem Line.category_of_read {raw file : Text} {number : Int} {found : Problem}
    (failed : Line.read raw file number = .error found) :
    found.fault.category ≠ .undefinedLabel := by
  rcases Line.fault_of_read failed with ⟨word, told⟩ | ⟨cause, told⟩ <;> rw [told] <;> nofun

namespace Placement

variable {settings : Settings} {file raw : Text} {inside : Option Section} {placement : Placement}
  {placements : List Placement} {diagnostic : Diagnostic}

theorem category_of_toldOnCollecting {before : List Placement}
    (placed : Placed file placement.number inside raw placement.inside placement.entry)
    (told : diagnostic ∈ placement.toldOnCollecting before) :
    diagnostic.category? ≠ some .undefinedLabel := by
  obtain ⟨number, after, address, entry⟩ := placement
  dsimp only at placed
  have through {found : Problem} (other : found.fault.category ≠ .undefinedLabel) :
      (Diagnostic.problem found).category? ≠ some .undefinedLabel := by
    simpa [Diagnostic.category?] using other
  cases placed with
  | unread failed =>
    rw [List.mem_singleton.mp told]
    exact through (Line.category_of_read failed)
  | refused read content code failed =>
    rw [List.mem_singleton.mp told]
    exact through (Entry.category_of_ofCode failed)
  | stray =>
    rw [List.mem_singleton.mp told]
    simp [Diagnostic.category?]
  | passive =>
    unfold toldOnCollecting at told
    dsimp only at told
    split at told
    · split at told
      · split at told
        · cases told
        · rw [List.mem_singleton.mp told]
          simp [Diagnostic.category?]
      · rw [List.mem_singleton.mp told]
        simp [Diagnostic.category?, Fault.category]
    · cases told
  | item | code => cases told

theorem category_of_collecting {before : List Placement}
    (placed : ∀ placement ∈ placements, ∃ inside raw,
      Placed file placement.number inside raw placement.inside placement.entry)
    (told : diagnostic ∈ collectingDiagnostics before placements) :
    diagnostic.category? ≠ some .undefinedLabel := by
  obtain ⟨placement, member, earlier, first⟩ := exists_of_mem_collecting told
  obtain ⟨inside, raw, own⟩ := placed placement member
  exact category_of_toldOnCollecting own first

end Placement

/-! ### The two policies on a program -/

/-- The share of a line where undefined labels are allowed, made from its share where they are not:
its text as it stands if one of its labels is not bound. -/
def Placement.shareAllowing (table : SymbolTable) (placement : Placement) (share : List OutputLine) :
    List OutputLine :=
  if placement.refersUndefined table then
    placement.content?.toList.map fun (_, _, text) => .indented text
  else share

section
variable {settings : Settings} {table : SymbolTable} {file : Text} {placements : List Placement}

theorem outputShares_eq_zipWith (allowed : settings.allowUndefined = true)
    (placed : ∀ placement ∈ placements, ∃ inside raw,
      Placed file placement.number inside raw placement.inside placement.entry)
    (written : Option Section) :
    outputShares settings table written placements =
      List.zipWith (Placement.shareAllowing table) placements
        (outputShares settings.strict table written placements) := by
  induction placements generalizing written with
  | nil => rfl
  | cons placement rest ih =>
    rw [List.forall_mem_cons] at placed
    obtain ⟨⟨inside, raw, own⟩, others⟩ := placed
    rw [outputShares, outputShares, List.zipWith_cons_cons]
    cases undefined : placement.refersUndefined table with
    | true =>
      obtain ⟨content, found, listed, passes, reason, refused⟩ :=
        Emission.ofPlacement_of_refersUndefined allowed own undefined
      rw [Placement.emission_of_ok passes, Placement.emission_of_error refused,
        Placement.shareAllowing, if_pos undefined, listed]
      exact congrArg _ (ih others written)
    | false =>
      have same : placement.emission settings.strict table = placement.emission settings table := by
        rw [Placement.emission, Placement.emission, Emission.ofPlacement_strict own undefined]
      rw [same, Placement.shareAllowing, undefined]
      exact congrArg _ (ih others _)

theorem SecondPass.observeAll_strict
    (same : ∀ placement ∈ placements, Emission.ofPlacement settings.strict table placement =
      Emission.ofPlacement settings table placement) (pass : SecondPass) :
    observeAll settings.strict table pass placements = observeAll settings table pass placements := by
  induction placements generalizing pass with
  | nil => rfl
  | cons placement rest ih =>
    rw [List.forall_mem_cons] at same
    have step : observe settings.strict table pass placement =
        observe settings table pass placement := by
      rw [observe, observe, same.1]
    rw [observeAll, observeAll, step]
    split
    · rfl
    · exact ih same.2 _

/-- Without the permission each line with an undefined label has one fatal problem, and the others have
none. -/
theorem fatalCount_emitting_le {file : Text} (laid : ∀ placement ∈ placements, ∃ inside raw,
      Placed file placement.number inside raw placement.inside placement.entry)
    (writable : ∀ placement ∈ placements, placement.Sound ∧ ∃ emission,
      Emission.ofPlacement settings table placement = .ok emission) :
    fatalCount (placements.flatMap (Placement.toldOnEmitting settings.strict table)) ≤
      placements.countP (Placement.refersUndefined table) := by
  induction placements with
  | nil => exact Nat.le_refl 0
  | cons placement rest ih =>
    rw [List.forall_mem_cons] at laid writable
    obtain ⟨⟨inside, raw, placed⟩, others⟩ := laid
    obtain ⟨⟨sound, emission, emits⟩, writableRest⟩ := writable
    rw [List.flatMap_cons, fatalCount_append, List.countP_cons]
    have tail := ih others writableRest
    cases undefined : placement.refersUndefined table with
    | true =>
      have single := (@Placement.toldOnEmitting_single settings.strict table file raw inside
        placement placed).length_le
      have few : fatalCount (placement.toldOnEmitting settings.strict table) ≤ _ :=
        List.countP_le_length
      rw [List.length_map, List.length_singleton] at single
      rw [if_pos rfl]
      omega
    | false =>
      have strictly : Emission.ofPlacement settings.strict table placement = .ok emission := by
        rw [Emission.ofPlacement_strict placed undefined, emits]
      have silent : placement.toldOnEmitting settings.strict table = [] := by
        rw [← Emission.toldBy_ofPlacement placed sound.accepted, strictly]
        exact Emission.told_of_strict rfl strictly
      rw [silent, fatalCount_nil, if_neg nofun]
      omega

end

theorem Laid.addresses_eq {file : Text} {start finish : Cursor} {lines : List Text}
    {placements : List Placement} (laid : Laid file start lines placements finish) :
    placements.map Placement.address ++ [finish.address] =
      start.address :: placements.map Placement.next := by
  induction laid with
  | nil cursor => rfl
  | cons number address placed laid ih =>
    rw [List.map_cons, List.map_cons, List.cons_append, ih, address]
    rfl

theorem Laid.line_of_mem {file : Text} {start finish : Cursor} {lines : List Text}
    {placements : List Placement} (laid : Laid file start lines placements finish) :
    ∀ placement ∈ placements, start.number ≤ placement.number ∧
      ∃ inside raw, lines[placement.number - start.number]? = some raw ∧
        Placed file placement.number inside raw placement.inside placement.entry := by
  induction laid with
  | nil cursor => simp
  | @cons cursor finish raw rest placement placements number address placed laid ih =>
    rw [List.forall_mem_cons]
    constructor
    · refine ⟨number.ge, cursor.inside, raw, ?_, number ▸ placed⟩
      rw [number, Nat.sub_self, List.getElem?_cons_zero]
    · intro later member
      obtain ⟨above, inside, own, found, placedLater⟩ := ih later member
      have next : placement.after.number = cursor.number + 1 := congrArg (· + 1) number
      rw [next] at above found
      refine ⟨by omega, inside, own, ?_, placedLater⟩
      have index : later.number - cursor.number = later.number - (cursor.number + 1) + 1 := by omega
      rw [index, List.getElem?_cons_succ, found]

theorem Placed.text_of_content {file raw text : Text} {inside : Option Section}
    {placement : Placement} {number address : Nat}
    (placed : Placed file placement.number inside raw placement.inside placement.entry)
    (content : placement.content? = some (number, address, text)) :
    (Source.line? raw).map Line.text = some text ∧ number = placement.number ∧
      address = placement.address := by
  obtain ⟨ownNumber, after, ownAddress, entry⟩ := placement
  dsimp only at placed
  cases placed with
  | item read =>
    cases content
    rw [Source.line?_eq_some read]
    exact ⟨rfl, rfl, rfl⟩
  | code read code valid =>
    cases content
    rw [Source.line?_eq_some read, valid.text_eq]
    exact ⟨rfl, rfl, rfl⟩
  | _ => cases content

theorem filter_eq_singleton {α κ : Type} [DecidableEq κ] {kind : α → κ} {elements : List α} {own : α}
    (distinct : (elements.map kind).Nodup) (member : own ∈ elements) :
    elements.filter (fun element => kind element = kind own) = [own] := by
  induction elements with
  | nil => cases member
  | cons first rest ih =>
    rw [List.map_cons, List.nodup_cons] at distinct
    rcases List.mem_cons.mp member with rfl | later
    · have others : rest.filter (fun element => kind element = kind own) = [] := by
        rw [List.filter_eq_nil_iff]
        intro element inside same
        exact distinct.1 (of_decide_eq_true same ▸ List.mem_map_of_mem inside)
      rw [List.filter_cons_of_pos (by simp), others]
    · have other : kind first ≠ kind own := by
        intro same
        exact distinct.1 (same ▸ List.mem_map_of_mem later)
      rw [List.filter_cons_of_neg (by simpa using other), ih distinct.2 later]

namespace Run

variable {settings : Settings} {file : Text} {lines : List Text} {placements : List Placement}
  {finish : Nat} {first : FirstPass}

theorem Collects.strict (collects : Collects settings file lines placements finish first) :
    Collects settings.strict file lines placements finish first :=
  ⟨collects.layout, collects.ended, collects.clean⟩

theorem eq_strict_of_outcome
    (returned : (Run.ofLines settings.strict file lines).outcome = .ok ()) :
    Run.ofLines settings file lines = Run.ofLines settings.strict file lines := by
  obtain ⟨placements, finish, first, second, collects, emits⟩ := completes_of_outcome returned
  have permissive : Collects settings file lines placements finish first :=
    ⟨collects.layout, collects.ended, collects.clean⟩
  obtain ⟨after, -, laid⟩ := collects.laid
  cases allowed : settings.allowUndefined with
  | false =>
    have same : settings.strict = settings := by
      rw [Settings.strict, ← allowed]
    rw [same]
  | true =>
    have same : ∀ placement ∈ placements,
        Emission.ofPlacement settings.strict first.symbols.freeze placement =
          Emission.ofPlacement settings first.symbols.freeze placement := by
      intro placement member
      obtain ⟨inside, raw, placed⟩ := laid.placed_of_mem placement member
      cases undefined : placement.refersUndefined first.symbols.freeze with
      | false => exact Emission.ofPlacement_strict placed undefined
      | true =>
        -- the strict run would not have returned
        obtain ⟨-, -, -, -, reason, refused⟩ :=
          Emission.ofPlacement_of_refersUndefined allowed placed undefined
        obtain ⟨others, ended, assembled⟩ := assembled_of_outcome returned
        rw [show others = placements from assembled.placements_eq.symm.trans
          (congrArg Layout.placements collects.layout)] at assembled
        obtain ⟨emission, emits⟩ := assembled.writable.written placement member
        rw [← collects.table_eq, refused] at emits
        cases emits
    have emitsToo : Emits settings file placements finish first second :=
      ⟨(SecondPass.observeAll_strict same _).symm.trans emits.ended, emits.clean⟩
    rw [permissive.ofLines_eq, collects.ofLines_eq, emits.emit_eq, emitsToo.emit_eq]

/-- What the limit leaves of a strict run, where the program is assembled with undefined labels. -/
theorem strict_shares (returned : (Run.ofLines settings file lines).outcome = .ok ()) :
    let run := Run.ofLines settings file lines
    let strict := Run.ofLines settings.strict file lines
    let placements := (Layout.ofLines settings.base file lines).placements
    strict.symbols = run.symbols ∧ ∃ front, front <+: placements ∧
      strict.output = (outputShares settings.strict run.symbols none front).flatten ∧
      (placements.countP (Placement.refersUndefined run.symbols) < settings.maxErrors →
        front = placements) := by
  intro run strict placements
  obtain ⟨all, finish, first, second, collects, emits⟩ := completes_of_outcome returned
  have same : placements = all := congrArg Layout.placements collects.layout
  subst same
  have symbols : run.symbols = Placement.table placements := by
    rw [← collects.table_eq, show run = _ from collects.ofLines_eq, emits.emit_eq]
  have strictSymbols : strict.symbols = run.symbols := by
    rw [symbols, ← collects.table_eq, show strict = _ from collects.strict.ofLines_eq, emit]
    dsimp only
    split
    · rfl
    · split <;> rfl
  obtain ⟨front, rest, whole, output, -, ended⟩ := collects.strict.shares
  refine ⟨strictSymbols, front, ⟨rest, whole.symm⟩, strictSymbols ▸ output, fun few => ?_⟩
  have nothing : rest = [] := by
    apply ended
    obtain ⟨others, after, assembled⟩ := assembled_of_outcome returned
    rw [← assembled.placements_eq] at assembled
    have fatal := @fatalCount_emitting_le settings (Placement.table placements) placements file
      assembled.laid.placed_of_mem fun placement member =>
        ⟨assembled.writable.sound placement member, assembled.writable.written placement member⟩
    rw [Placement.diagnostics, if_pos collects.harmless, fatalCount_append, collects.harmless,
      Nat.zero_add]
    exact Nat.lt_of_le_of_lt fatal (symbols ▸ few)
  rw [whole, nothing, List.append_nil]

/-- A line with an undefined label in a run where that is allowed: it has one line of text, one error, and
the bytes that it has wherever its labels are bound. -/
structure PassesThrough (settings : Settings) (lines : List Text) (run : Run) (placement : Placement)
    (text : Text) : Prop where
  source : (lines[placement.number - 1]?.bind Source.line?).map Line.text = some text
  content : placement.content? = some (placement.number, placement.address, text)
  told : ∃ diagnostic,
    run.report.diagnostics.filter (·.line? = some (placement.number : Int)) = [diagnostic] ∧
      diagnostic.severity = .error ∧ diagnostic.category? = some .undefinedLabel
  resolvable : ∃ other : SymbolTable,
    (∀ name symbol, run.symbols.find? name = some symbol → other.find? name = some symbol) ∧
      ∃ texts, Emission.ofPlacement settings.strict other placement = .ok (.lines text texts)
  advance : ∀ other texts,
    Emission.ofPlacement settings.strict other placement = .ok (.lines text texts) →
      placement.next = placement.address + OutputReader.lineSize placement.inside * texts.length

theorem told_once (returned : (Run.ofLines settings file lines).outcome = .ok ())
    {placement : Placement}
    (member : placement ∈ (Layout.ofLines settings.base file lines).placements) {source : Text}
    {found : Problem} (passes : Emission.ofPlacement settings
      (Run.ofLines settings file lines).symbols placement = .ok (.verbatim source found)) :
    ∃ diagnostic, (Run.ofLines settings file lines).report.diagnostics.filter
        (·.line? = some (placement.number : Int)) = [diagnostic] ∧
      diagnostic.severity = .error ∧ diagnostic.category? = some .undefinedLabel := by
  obtain ⟨placements, after, assembled⟩ := assembled_of_outcome returned
  rw [assembled.placements_eq] at member
  obtain ⟨inside, raw, placed⟩ := assembled.laid.placed_of_mem placement member
  have sound := assembled.writable.sound placement member
  have reported : .problem found ∈ (Run.ofLines settings file lines).report.diagnostics :=
    assembled.reported placement member _ passes (List.mem_singleton_self _)
  have about : (Diagnostic.problem found).line? = some (placement.number : Int) := by
    have single := @Placement.toldOnEmitting_single settings
      (Run.ofLines settings file lines).symbols file raw inside placement placed
    rw [← Emission.toldBy_ofPlacement placed sound.accepted, passes] at single
    exact List.mem_singleton.mp (single.subset List.mem_cons_self)
  have distinct := ((reported_sublist settings file lines).map Diagnostic.line?).nodup
    (Placement.nodup_lines settings _ file lines)
  refine ⟨.problem found, ?_, ?_, ?_⟩
  · rw [← about]
    exact filter_eq_singleton distinct reported
  · exact Emission.severity_of_told placed sound passes _ (List.mem_singleton_self _)
  · rcases Emission.told_of_ofPlacement passes with silent | ⟨-, other, alone, missing⟩
    · cases silent
    · cases alone
      exact congrArg some missing

theorem passesThrough_of_outcome (allowed : settings.allowUndefined = true)
    (returned : (Run.ofLines settings file lines).outcome = .ok ()) {placement : Placement}
    (member : placement ∈ (Layout.ofLines settings.base file lines).placements)
    (undefined : placement.refersUndefined (Run.ofLines settings file lines).symbols = true) :
    ∃ text, PassesThrough settings lines (Run.ofLines settings file lines) placement text := by
  obtain ⟨placements, after, assembled⟩ := assembled_of_outcome returned
  have inside : placement ∈ placements := assembled.placements_eq ▸ member
  obtain ⟨-, before, raw, line, placed⟩ := assembled.laid.line_of_mem placement inside
  obtain ⟨⟨number, address, text⟩, found, content, passes, -⟩ :=
    Emission.ofPlacement_of_refersUndefined allowed placed undefined
  obtain ⟨source, rfl, rfl⟩ := placed.text_of_content content
  refine ⟨text, ?_, content, told_once returned member passes, ?_, ?_⟩
  · have index : settings.start.number = 1 := rfl
    rw [index] at line
    rw [line, Option.bind_some]
    exact source
  · refine ⟨placement.supplied _, fun name symbol => Placement.find?_supplied_of_bound, ?_⟩
    obtain ⟨emission, emits, silent⟩ := Emission.exists_of_silent placed
      (assembled.accepted placement inside)
      (@Placement.silent_of_supplied _ placement settings.strict file raw before placed undefined)
    obtain ⟨texts, rfl, -⟩ := Emission.lines_of_content placed content emits silent
    exact ⟨texts, emits⟩
  · intro other texts emits
    obtain ⟨own, same, size⟩ := Emission.lines_of_content placed content emits rfl
    cases same
    rw [Placement.next, size]

theorem fatal_of_allowed (allowed : settings.allowUndefined = true) {diagnostic : Diagnostic}
    (reported : diagnostic ∈ (Run.ofLines settings file lines).report.diagnostics)
    (fatal : diagnostic.severity = .fatal) : diagnostic.category? ≠ some .undefinedLabel := by
  obtain ⟨front, after, -, laid⟩ := Laid.of_layFrom file settings.start lines
  rcases List.mem_append.mp ((reported_sublist settings file lines).subset reported) with
    collecting | emitting
  · exact Placement.category_of_collecting laid.placed_of_mem collecting
  · obtain ⟨placement, -, own⟩ := List.mem_flatMap.mp emitting
    obtain ⟨line, found, -, referred, alone⟩ := Placement.referred_of_toldOnEmitting own
    rw [alone, List.mem_singleton] at own
    subst own
    rcases referred.told settings with ⟨-, severity⟩ | ⟨category, -⟩
    · rw [severity, if_pos allowed] at fatal
      cases fatal
    · rw [category]
      nofun

theorem exists_fatal_of_problem {found : Problem}
    (failed : (Run.ofLines settings file lines).outcome = .error (.problem found)) :
    ∃ diagnostic ∈ (Run.ofLines settings file lines).report.diagnostics,
      diagnostic.severity = .fatal := by
  have told : Tells settings (Placement.diagnostics settings
      (Layout.ofLines settings.base file lines).placements) (Run.ofLines settings file lines) := by
    apply tells
    intro fault other
    cases failed.symm.trans other
  have some_fatal : fatalCount (Run.ofLines settings file lines).report.diagnostics ≠ 0 := by
    have unreturned : (Run.ofLines settings file lines).outcome ≠ .ok () := by
      rw [failed]
      nofun
    have fatal := mt told.returns.mpr unreturned
    have positive := settings.maxErrors_pos
    rw [told.recorded, fatalCount_upToFatal]
    omega
  rw [ne_eq, fatalCount_eq_zero_iff] at some_fatal
  simpa using some_fatal

/-- Undefined labels where they are allowed. If the run returns, its output is made of one share for each
line: a line with an undefined label has its text as it stands and passes through, and every other line
has what it has where undefined labels are not allowed. A program that is assembled without the
permission is assembled to the same with it; and a run with the permission fails only for a numeral
that cannot be converted or for fatal problems, of which none is an undefined label. -/
theorem undefined_labels_allowed (settings : Settings) (file : Text) (lines : List Text)
    (allowed : settings.allowUndefined = true) :
    let run := Run.ofLines settings file lines
    let strict := Run.ofLines settings.strict file lines
    let placements := (Layout.ofLines settings.base file lines).placements
    (run.outcome = .ok () →
      placements.map Placement.number = List.range' 1 lines.length ∧
      placements.map Placement.address ++ [run.finish] =
        settings.base :: placements.map Placement.next ∧
      run.output = (List.zipWith (Placement.shareAllowing run.symbols) placements
        (outputShares settings.strict run.symbols none placements)).flatten ∧
      (strict.symbols = run.symbols ∧ ∃ front, front <+: placements ∧
        strict.output = (outputShares settings.strict run.symbols none front).flatten ∧
        (placements.countP (Placement.refersUndefined run.symbols) < settings.maxErrors →
          front = placements)) ∧
      ∀ placement ∈ placements, placement.refersUndefined run.symbols = true →
        ∃ text, PassesThrough settings lines run placement text) ∧
    (strict.outcome = .ok () → run = strict) ∧
    (∀ failure, run.outcome = .error failure → (∃ fault, failure = .numeral fault) ∨
      ∃ diagnostic ∈ run.report.diagnostics, diagnostic.severity = .fatal) ∧
    ∀ diagnostic ∈ run.report.diagnostics, diagnostic.severity = .fatal →
      diagnostic.category? ≠ some .undefinedLabel := by
  intro run strict placements
  refine ⟨fun returned => ?_, eq_strict_of_outcome, fun failure failed => ?_,
    fun diagnostic reported => fatal_of_allowed allowed reported⟩
  · obtain ⟨others, after, assembled⟩ := assembled_of_outcome returned
    have same : placements = others := assembled.placements_eq
    subst same
    refine ⟨assembled.laid.numbers_eq, ?_, ?_, strict_shares returned,
      fun placement member => passesThrough_of_outcome allowed returned member⟩
    · rw [assembled.ended]
      exact assembled.laid.addresses_eq
    · rw [← outputShares_eq_zipWith allowed assembled.laid.placed_of_mem]
      exact (shares_of_outcome returned).1
  · rcases inconvertible_of_outcome failed with
      ⟨found, rfl⟩ | ⟨-, -, -, -, fault, -, -, rfl⟩
    · exact .inr (exists_fatal_of_problem failed)
    · exact .inl ⟨fault, rfl⟩

/-- An item with a label that is bound and one that is not, and a load of a label that is not bound. -/
theorem undefined_labels_allowed_mixed :
    let settings : Settings := { allowUndefined := true }
    let lines : List Text :=
      [".data", ":HERE", "  5 :HERE :AWAY ; both", ":HERE", ".code", "ld r1, :AWAY", "br :HERE"]
    let run := Run.ofLines settings "demo" lines
    let strict := Run.ofLines settings.strict "demo" lines
    settings.allowUndefined = true ∧ run.outcome = .ok () ∧
      run.outputLines = ([".data", "\t5 :HERE :AWAY", ".code", "\tld r1, :AWAY", "\tbr 4104"] : List Text) ∧
      strict.symbols = run.symbols ∧
      ∃ placement ∈ (Layout.ofLines settings.base "demo" lines).placements,
        PassesThrough settings lines run placement "5 :HERE :AWAY" := by
  intro settings lines run strict
  have returned : run.outcome = .ok () := by decide +kernel
  obtain ⟨-, -, output, ⟨symbols, -⟩, through⟩ :=
    (undefined_labels_allowed settings "demo" lines rfl).1 returned
  have third : (Layout.ofLines settings.base "demo" lines).placements[2]? = some _ := rfl
  have member := List.mem_of_getElem? third
  obtain ⟨text, passes⟩ := through _ member (by decide +kernel)
  have same : some ("5 :HERE :AWAY" : Text) = some text :=
    congrArg (Option.map fun content : Nat × Nat × Text => content.2.2) passes.content
  cases same
  refine ⟨rfl, returned, ?_, symbols, _, member, passes⟩
  rw [Run.outputLines, output]
  decide +kernel

end Run

end TwoPass
