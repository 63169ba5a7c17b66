import TwoPass.Proofs.Conversion
import TwoPass.Proofs.Line
import TwoPass.Proofs.Reference
import TwoPass.Proofs.Run
import TwoPass.Proofs.Text.LineBreak

/-! How a run can end.

A run returns, or it ends with a problem of the source, or with a numeral that cannot be converted. The
other failures are refusals of operations that an earlier check has made safe: an operand is looked
for where the shape has one, compared with a range if it has a number, and expanded once its label
is replaced. Where all numerals can be converted the layout covers every line. -/

set_option autoImplicit false

namespace TwoPass

/-! ### Reading and checking a line -/

/-- How the check of operands fails: with a problem of their line, or with a number that cannot be
written. -/
inductive Operand.Refused (line : Line) (operands : List Operand) : Failure → Prop
  | problem (fault : Fault) (offset : Nat) :
    Refused line operands (.problem (line.problem fault offset))
  | numeral {operand : Operand} {number : Int} {fault : Numeral.Fault} (member : operand ∈ operands)
    (told : number ∈ operand.value.numbers) (unwritten : Numeral.write number = .error fault) :
    Refused line operands (.numeral fault)

theorem Operand.Refused.mono {line : Line} {operands others : List Operand} {failure : Failure}
    (refused : Operand.Refused line operands failure) (kept : operands ⊆ others) :
    Operand.Refused line others failure := by
  cases refused with
  | problem fault offset => exact .problem fault offset
  | numeral member told unwritten => exact .numeral (kept member) told unwritten

namespace Statement

variable {line : Line} {operand : Operand} {operands : List Operand} {failure : Failure}

theorem checkRegisters_refused (failed : checkRegisters line operands = .error failure) :
    Operand.Refused line operands failure := by
  induction operands with
  | nil => cases failed
  | cons operand rest ih =>
    unfold checkRegisters at failed
    split at failed
    · next index named =>
      split at failed
      · exact (ih failed).mono (List.subset_cons_self operand rest)
      · split at failed
        · cases failed
          exact .problem _ _
        · next fault unwritten =>
          cases failed
          refine .numeral List.mem_cons_self ?_ unwritten
          cases value : operand.value <;>
            simp_all [Operand.register?, Operand.Value.numbers]
    · exact (ih failed).mono (List.subset_cons_self operand rest)

theorem checkRange_refused {value : Int} {range : Range} {what : Text} {offset : Nat}
    (told : value ∈ operand.value.numbers)
    (failed : checkRange line value range what offset = .error failure) :
    Operand.Refused line [operand] failure := by
  unfold checkRange at failed
  split at failed
  · cases failed
  · split at failed
    · cases failed
      exact .problem _ _
    · next fault unwritten =>
      cases failed
      exact .numeral (List.mem_singleton_self operand) told unwritten

theorem checkSlot_refused {slot : Slot} (accepts : slot.accepts operand.value = true)
    (failed : checkSlot line slot operand = .error failure) :
    Operand.Refused line [operand] failure := by
  cases slot <;> cases value : operand.value <;> rw [value] at accepts <;> cases accepts
  all_goals
    simp only [checkSlot, value, Slot.range?, Slot.immediateName?, Operand.Value.number?] at failed
  case register.register | address.label | relative.label => cases failed
  case unsigned12.immediate | signed12.immediate | unsigned64.immediate | memory.memory =>
    exact checkRange_refused (by simp [value, Operand.Value.numbers]) failed

theorem checkRanges_refused {pairs : List (Slot × Operand)}
    (accepts : ∀ pair ∈ pairs, pair.1.accepts pair.2.value = true)
    (failed : checkRanges line pairs = .error failure) :
    Operand.Refused line (pairs.map Prod.snd) failure := by
  induction pairs with
  | nil => cases failed
  | cons pair rest ih =>
    obtain ⟨slot, operand⟩ := pair
    rw [List.forall_mem_cons] at accepts
    rcases Except.bind_eq_error_iff.mp failed with first | ⟨_, -, others⟩
    · exact (checkSlot_refused accepts.1 first).mono (by simp)
    · exact (ih accepts.2 others).mono (by simp)

theorem check_refused {statement : Statement} (failed : statement.check = .error failure) :
    Operand.Refused statement.line statement.operands failure := by
  unfold check at failed
  split at failed
  · cases failed
    exact .problem _ _
  next instruction known =>
  rcases Except.bind_eq_error_iff.mp failed with registers | ⟨_, -, rest⟩
  · exact checkRegisters_refused registers
  split at rest
  · cases rest
    exact .problem _ _
  next shape shaped =>
  have accepts : shape.accepts statement.operands = true := by
    rw [shape?, known] at shaped
    have found := List.find?_some shaped
    exact found
  rcases Except.bind_eq_error_iff.mp rest with ranges | ⟨_, -, impossible⟩
  · have refused := checkRanges_refused (Shape.accepts_of_mem_zip accepts) ranges
    refine refused.mono fun operand member => ?_
    obtain ⟨⟨slot, other⟩, paired, rfl⟩ := List.mem_map.mp member
    exact (List.of_mem_zip paired).2
  · cases impossible

end Statement

/-- A numeral of a line cannot be read, or a number of it cannot be written. -/
inductive Line.Inconvertible (line : Line) : Numeral.Fault → Prop
  | unread {c : Char} {rest : Text} {fault : Numeral.Fault} (within : c :: rest <:+ line.text)
    (refused : Scan.cut c rest = .error (.numeral fault)) : Inconvertible line fault
  | unwritten {statement : Statement} {operand : Operand} {number : Int} {fault : Numeral.Fault}
    (read : Statement.read line = .ok statement) (member : operand ∈ statement.operands)
    (told : number ∈ operand.value.numbers) (refused : Numeral.write number = .error fault) :
    Inconvertible line fault

theorem Line.not_inconvertible {line : Line} (convertible : Text.Convertible line.text)
    (fault : Numeral.Fault) : ¬line.Inconvertible fault := by
  intro inconvertible
  cases inconvertible with
  | unread within refused =>
    exact Scan.cut_ne_numeral (convertible.part within.isInfix) refused
  | unwritten read member told refused =>
    have writable := Statement.writable_of_read read convertible _ member _ told
    rw [Numeral.write_of_writable writable] at refused
    cases refused

theorem Statement.read_refused {line : Line} {failure : Failure} (content : line.body = .content)
    (failed : Statement.read line = .error failure) :
    (∃ fault offset, failure = .problem (line.problem fault offset)) ∨
      ∃ fault, failure = .numeral fault ∧ line.Inconvertible fault := by
  unfold Statement.read at failed
  rw [if_neg (not_not.mpr content)] at failed
  dsimp only at failed
  split at failed
  · next fault offset stopped =>
    cases failed
    obtain ⟨c, rest, within, refused⟩ := @Scan.cut_of_scanAt line.text 0 _ _ stopped
    exact .inr ⟨fault, rfl, .unread within refused⟩
  · cases failed
    exact .inl ⟨_, _, rfl⟩
  · split at failed
    · cases failed
      exact .inl ⟨_, _, rfl⟩
    · cases failed

theorem Entry.ofCode_refused {line : Line} {failure : Failure} (content : line.body = .content)
    (failed : Entry.ofCode line = .error failure) :
    (∃ fault offset, failure = .problem (line.problem fault offset)) ∨
      ∃ fault, failure = .numeral fault ∧ line.Inconvertible fault := by
  unfold Entry.ofCode at failed
  split at failed
  · cases failed
    exact .inl ⟨_, _, rfl⟩
  rcases Except.bind_eq_error_iff.mp failed with unread | ⟨statement, read, rest⟩
  · exact Statement.read_refused content unread
  rcases Except.bind_eq_error_iff.mp rest with unchecked | ⟨shape, -, impossible⟩
  · have refused := Statement.check_refused unchecked
    rw [Statement.line_of_read read] at refused
    cases refused with
    | problem fault offset => exact .inl ⟨fault, offset, rfl⟩
    | numeral member told refused => exact .inr ⟨_, rfl, .unwritten read member told refused⟩
  · cases impossible

/-! ### Laying out -/

theorem Placement.inconvertible_of_ofRaw {file raw : Text} {number address : Nat}
    {inside : Option Section} {failure : Failure}
    (failed : Placement.ofRaw file number inside address raw = .error failure) :
    ∃ line fault, Line.read raw file number = .ok line ∧ line.Inconvertible fault ∧
      failure = .numeral fault := by
  cases read : Line.read raw file number with
  | error found =>
    unfold Placement.ofRaw at failed
    rw [read] at failed
    cases failed
  | ok line =>
    rw [Placement.ofRaw_of_read read] at failed
    have unplaced : Entry.ofLine inside line = .error failure := by
      cases entry : Entry.ofLine inside line with
      | ok entry =>
        rw [entry] at failed
        cases failed
      | error other =>
        rw [entry] at failed
        cases failed
        rfl
    by_cases content : line.body = .content
    · match inside with
      | none | some .data => simp [Entry.ofLine, content] at unplaced
      | some .code =>
        cases passed : Entry.ofCode line with
        | ok entry =>
          rw [Entry.ofLine_of_ofCode_ok content passed] at unplaced
          cases unplaced
        | error other =>
          rw [Entry.ofLine_of_ofCode_error content passed] at unplaced
          rcases Entry.ofCode_refused content passed with
            ⟨fault, offset, rfl⟩ | ⟨fault, rfl, inconvertible⟩
          · cases unplaced
          · cases unplaced
            exact ⟨line, fault, rfl, inconvertible, rfl⟩
    · rw [Entry.ofLine_of_ne_content content] at unplaced
      cases unplaced

theorem Layout.inconvertible_of_layFrom {file : Text} {number address : Nat}
    {inside : Option Section} {lines : List Text} {failure : Failure}
    (stopped : (Layout.layFrom file number inside address lines).finish = .error failure) :
    ∃ raw ∈ lines, ∃ place line fault, Line.read raw file place = .ok line ∧
      line.Inconvertible fault ∧ failure = .numeral fault := by
  induction lines generalizing number inside address with
  | nil => cases stopped
  | cons raw rest ih =>
    unfold Layout.layFrom at stopped
    split at stopped
    · next unplaced =>
      cases stopped
      obtain ⟨line, fault, read, inconvertible, rfl⟩ := Placement.inconvertible_of_ofRaw unplaced
      exact ⟨raw, List.mem_cons_self, number, line, fault, read, inconvertible, rfl⟩
    · obtain ⟨later, member, found⟩ := ih stopped
      exact ⟨later, List.mem_cons_of_mem raw member, found⟩

theorem Layout.finish_of_convertible {file : Text} {number address : Nat} {inside : Option Section}
    {lines : List Text} (convertible : ∀ raw ∈ lines, Text.Convertible raw) :
    ∃ finish, (Layout.layFrom file number inside address lines).finish = .ok finish := by
  cases placed : (Layout.layFrom file number inside address lines).finish with
  | ok finish => exact ⟨finish, rfl⟩
  | error failure =>
    obtain ⟨raw, member, place, line, fault, read, inconvertible, -⟩ :=
      Layout.inconvertible_of_layFrom placed
    have part := (convertible raw member).part (Line.text_isInfix read)
    exact absurd inconvertible (Line.not_inconvertible part fault)

theorem Laid.numbers_eq {file : Text} {start finish : Cursor} {lines : List Text}
    {placements : List Placement} (laid : Laid file start lines placements finish) :
    placements.map Placement.number = List.range' start.number lines.length := by
  induction laid with
  | nil cursor => rfl
  | @cons cursor finish raw rest placement placements number address placed laid ih =>
    rw [List.map_cons, ih, List.length_cons, List.range'_succ, number, Placement.after, number]

theorem Layout.numbers_of_finish {settings : Settings} {file : Text} {lines : List Text}
    {finish : Nat} (placed : (Layout.ofLines settings.base file lines).finish = .ok finish) :
    (Layout.ofLines settings.base file lines).placements.map Placement.number =
      List.range' 1 lines.length := by
  generalize layout : Layout.ofLines settings.base file lines = laidOut at placed
  obtain ⟨placements, ended⟩ := laidOut
  cases placed
  obtain ⟨after, -, laid⟩ := (@Laid.layFrom_eq_iff _ _ settings.start _ _).mp layout
  exact laid.numbers_eq

/-! ### Emitting -/

namespace Statement

variable {statement : Statement} {table : SymbolTable} {place : Int} {failure : Failure}

theorem Valid.expand_eq {line : Line} {instruction : Instruction} {shape : Shape}
    {resolved : Statement} (valid : Valid line statement instruction shape)
    (stands : instruction.isPseudo = true)
    (done : statement.resolve table shape place = .ok resolved) :
    ∃ texts, resolved.expand = .ok texts := by
  have resolution := valid.resolution done
  obtain ⟨pseudo, known⟩ := Option.isSome_iff_exists.mp stands
  have named : Instruction.pseudo? resolved.mnemonic = some pseudo := by
    rw [Instruction.pseudo?, resolution.mnemonic_eq, valid.known]
    exact known
  obtain ⟨instructions, expanded⟩ := Expansion.ofPseudo_of_ready (valid.ready known resolution)
  refine ⟨instructions.map InstructionText.render, ?_⟩
  simp only [expand, named, expanded]
  rfl

end Statement

namespace Emission

variable {settings : Settings} {table : SymbolTable} {failure : Failure}

theorem problem_of_unresolved {source : Text} {reason : Problem}
    (failed : unresolved settings source reason = .error failure) :
    ∃ found, failure = .problem found := by
  unfold unresolved at failed
  split at failed
  · cases failed
  · cases failed
    exact ⟨_, rfl⟩

/-- Nothing but a problem of the source keeps a placed line from being written. -/
theorem problem_of_placed {file raw : Text} {number : Nat} {inside : Option Section}
    {placement : Placement}
    (placed : Placed file number inside raw placement.inside placement.entry)
    (failed : ofPlacement settings table placement = .error failure) :
    ∃ found, failure = .problem found := by
  obtain ⟨ownNumber, after, address, entry⟩ := placement
  dsimp only at placed
  cases placed with
  | unread | refused =>
    rw [ofPlacement] at failed
    dsimp only at failed
    split at failed
    · cases failed
      exact ⟨_, rfl⟩
    · cases failed
  | @passive line read other =>
    rw [ofPlacement] at failed
    dsimp only at failed
    split at failed <;> cases failed
  | stray => cases failed
  | @item line read content data =>
    have unresolved : ofItem settings table line = .error failure := failed
    unfold ofItem at unresolved
    split at unresolved
    · cases unresolved
    · exact problem_of_unresolved unresolved
  | @code line statement instruction shape read code valid =>
    have unwritten : ofCode settings table address statement instruction shape = .error failure :=
      failed
    unfold ofCode at unwritten
    split at unwritten
    · exact problem_of_unresolved unwritten
    · next other unresolved =>
      cases unwritten
      exact valid.resolve_answers.problem_of_error unresolved
    · next resolved done =>
      split at unwritten
      · next stands =>
        obtain ⟨texts, expanded⟩ := valid.expand_eq stands done
        rw [expanded] at unwritten
        cases unwritten
      · cases unwritten

end Emission

theorem SecondPass.problem_of_reject {pass after : SecondPass} {reason : Problem} {failure : Failure}
    (stopped : pass.reject reason = (after, some failure)) : ∃ found, failure = .problem found := by
  obtain ⟨found, -, same⟩ := Option.map_eq_some_iff.mp (congrArg Prod.snd stopped)
  exact ⟨found, same.symm⟩

theorem SecondPass.problem_of_write {pass after : SecondPass} {placement : Placement}
    {emission : Emission} {failure : Failure}
    (stopped : pass.write placement emission = (after, some failure)) :
    ∃ found, failure = .problem found := by
  cases emission with
  | verbatim source reason =>
    have stop : (pass.reject reason).2 = some failure := congrArg Prod.snd stopped
    exact problem_of_reject (Prod.ext rfl stop)
  | directive target =>
    rw [write] at stopped
    split at stopped <;> cases stopped
  | _ => cases stopped

theorem SecondPass.problem_of_observeAll {settings : Settings} {table : SymbolTable}
    {placements : List Placement} {pass second : SecondPass} {failure : Failure}
    (written : ∀ placement ∈ placements, ∀ failure,
      Emission.ofPlacement settings table placement = .error failure →
        ∃ found, failure = .problem found)
    (stopped : SecondPass.observeAll settings table pass placements = (second, some failure)) :
    ∃ found, failure = .problem found := by
  induction placements generalizing pass with
  | nil => cases stopped
  | cons placement rest ih =>
    rw [List.forall_mem_cons] at written
    unfold SecondPass.observeAll at stopped
    split at stopped
    · next after stop observed =>
      cases stopped
      unfold SecondPass.observe at observed
      split at observed
      · exact problem_of_write observed
      · exact problem_of_reject observed
      · next other failed =>
        cases observed
        exact written.1 _ failed
    · exact ih written.2 stopped

/-! ### Telling -/

theorem Text.lines_ne_nil {first : Text} (nonempty : first ≠ []) (rest : List Text) :
    Text.lines (first :: rest) ≠ [] := by
  cases rest with
  | nil => simpa [Text.lines, Text.join, List.intercalate] using nonempty
  | cons second rest => simp [Text.lines, Text.join, List.intercalate, nonempty]

theorem Diagnostic.firstLine_exists (diagnostic : Diagnostic) :
    Text.splitLines diagnostic.text ≠ [] := by
  apply Text.splitLines_ne_nil
  cases diagnostic with
  | problem found =>
    apply Text.lines_ne_nil
    unfold Problem.headline
    dsimp only
    split <;> simp
  | warning notice location =>
    unfold Diagnostic.text
    dsimp only
    split <;> simp

namespace Laid

variable {file : Text} {start finish : Cursor} {lines : List Text} {placements : List Placement}

theorem placed_of_mem (laid : Laid file start lines placements finish) :
    ∀ placement ∈ placements, ∃ inside raw,
      Placed file placement.number inside raw placement.inside placement.entry := by
  induction laid with
  | nil cursor => simp
  | cons number address placed laid ih =>
    rw [← number] at placed
    exact List.forall_mem_cons.mpr ⟨⟨_, _, placed⟩, ih⟩

theorem problem_of_ofPlacement (laid : Laid file start lines placements finish) (settings : Settings)
    (table : SymbolTable) : ∀ placement ∈ placements, ∀ failure,
      Emission.ofPlacement settings table placement = .error failure →
        ∃ found, failure = .problem found := by
  intro placement member failure failed
  obtain ⟨inside, raw, placed⟩ := laid.placed_of_mem placement member
  exact Emission.problem_of_placed placed failed

end Laid

namespace Run

variable {settings : Settings} {file : Text} {lines : List Text}

theorem Collects.laid {placements : List Placement} {finish : Nat} {first : FirstPass}
    (collects : Collects settings file lines placements finish first) :
    ∃ after : Cursor, after.address = finish ∧ Laid file settings.start lines placements after :=
  (@Laid.layFrom_eq_iff _ _ settings.start _ _).mp collects.layout

theorem Collects.problem_of_observeAll {placements : List Placement} {finish : Nat}
    {first : FirstPass} {pass second : SecondPass} {table : SymbolTable} {failure : Failure}
    (collects : Collects settings file lines placements finish first)
    (stopped : SecondPass.observeAll settings table pass placements = (second, some failure)) :
    ∃ found, failure = .problem found := by
  obtain ⟨after, -, laid⟩ := collects.laid
  exact SecondPass.problem_of_observeAll (laid.problem_of_ofPlacement settings table) stopped

/-- A failure that is no problem lies with a numeral that cannot be converted. -/
theorem inconvertible_of_outcome {failure : Failure}
    (failed : (Run.ofLines settings file lines).outcome = .error failure) :
    (∃ found, failure = .problem found) ∨
      ∃ raw ∈ lines, ∃ place line fault, Line.read raw file place = .ok line ∧
        line.Inconvertible fault ∧ failure = .numeral fault := by
  have went := course settings file lines
  generalize Run.ofLines settings file lines = run at went failed
  cases went with
  | stopped | rejected | failed =>
    cases failed
    exact .inl ⟨_, rfl⟩
  | interrupted collected unplaced =>
    cases failed
    exact .inr (Layout.inconvertible_of_layFrom unplaced)
  | halted collects emitted =>
    cases failed
    exact .inl (collects.problem_of_observeAll emitted)
  | returned => cases failed

/-- No source makes a run end in any other way than by returning, with a problem, or with a numeral
of a line that cannot be converted, and all diagnostics can be told. Where no digit is foreign and no
run of hexadecimal digits is too long, all numerals are converted, and the layout has one placement
for each line, in order. -/
theorem ends_foreseen (settings : Settings) (file : Text) (lines : List Text) :
    let run := Run.ofLines settings file lines
    let layout := Layout.ofLines settings.base file lines
    (run.outcome = .ok () ∨ (∃ found, run.outcome = .error (.problem found)) ∨
      ∃ raw ∈ lines, ∃ place line fault, Line.read raw file place = .ok line ∧
        line.Inconvertible fault ∧ run.outcome = .error (.numeral fault)) ∧
    (∀ diagnostic ∈ run.report.diagnostics, Text.splitLines diagnostic.text ≠ []) ∧
    ((∀ raw ∈ lines, Text.Convertible raw) →
      (∀ fault, run.outcome ≠ .error (.numeral fault)) ∧
      (∃ finish, layout.finish = .ok finish) ∧
      layout.placements.map Placement.number = List.range' 1 lines.length) := by
  intro run layout
  refine ⟨?_, fun diagnostic _ => diagnostic.firstLine_exists, fun convertible => ⟨?_, ?_⟩⟩
  · cases outcome : run.outcome with
    | ok value => exact .inl rfl
    | error failure =>
      rcases inconvertible_of_outcome outcome with
        ⟨found, rfl⟩ | ⟨raw, member, place, line, fault, read, inconvertible, rfl⟩
      · exact .inr (.inl ⟨found, rfl⟩)
      · exact .inr (.inr ⟨raw, member, place, line, fault, read, inconvertible, rfl⟩)
  · intro fault failed
    rcases inconvertible_of_outcome failed with
      ⟨found, other⟩ | ⟨raw, member, place, line, fault, read, inconvertible, -⟩
    · cases other
    · have part := (convertible raw member).part (Line.text_isInfix read)
      exact Line.not_inconvertible part fault inconvertible
  · obtain ⟨finish, placed⟩ : ∃ finish, layout.finish = .ok finish :=
      Layout.finish_of_convertible convertible
    exact ⟨⟨finish, placed⟩, Layout.numbers_of_finish placed⟩

/-- The largest number of 3571 hexadecimal digits is out of range, which can still be told. -/
theorem ends_foreseen_longest :
    let lines : List Text := [".code", "\tld r1, 0x" ++ List.replicate 3571 'F', "\tbrr :END", ":END"]
    (∀ raw ∈ lines, Text.Convertible raw) ∧
      (∀ fault, (Run.ofLines {} "demo" lines).outcome ≠ .error (.numeral fault)) ∧
      (Layout.ofLines Machine.defaultBase "demo" lines).placements.map Placement.number =
        [1, 2, 3, 4] := by
  intro lines
  have behind (digits : Text) : Text.hexRunsWithin Numeral.hexRunLimit 0 ("\tld r1, 0x" ++ digits) =
      Text.hexRunsWithin Numeral.hexRunLimit 0 digits := rfl
  have long : Text.Convertible ("\tld r1, 0x" ++ List.replicate 3571 'F') := by
    refine Text.convertible_iff.mpr ⟨?_, ?_⟩
    · rw [List.all_append, Bool.and_eq_true]
      refine ⟨by decide +kernel, List.all_eq_true.mpr fun c member => ?_⟩
      rw [List.eq_of_mem_replicate member]
      decide +kernel
    · have hex : ∀ c ∈ List.replicate 3571 'F', Numeral.isHexDigit c = true := by
        intro c member
        rw [List.eq_of_mem_replicate member]
        rfl
      rw [behind, ← List.append_nil (List.replicate _ _), Text.hexRunsWithin_append hex,
        List.length_replicate]
      decide
  have others : ∀ raw ∈ ([".code", "\tbrr :END", ":END"] : List Text), Text.Convertible raw := by
    decide +kernel
  have convertible : ∀ raw ∈ lines, Text.Convertible raw := by
    rw [List.forall_mem_cons] at others
    exact List.forall_mem_cons.mpr ⟨others.1, List.forall_mem_cons.mpr ⟨long, others.2⟩⟩
  obtain ⟨converted, -, numbers⟩ := (ends_foreseen {} "demo" lines).2.2 convertible
  exact ⟨convertible, converted, numbers⟩

/-- A digit of another script begins a number that has no digits. -/
example : (Run.ofLines {} "demo" [".code", "addi r1, ²"]).outcome = .error (.numeral .noDigits) := by
  rfl

end Run

end TwoPass
