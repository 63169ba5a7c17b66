import Mathlib.Data.List.Nodup
import Mathlib.Data.List.Perm.Subperm
import TwoPass.Proofs.Diagnostics

/-! A run tells all that is to be told, in order and once.

What a run records and delivers is all that is to be told about its program, up to the fatal problem
that reaches the limit. Each diagnostic stands at its own line, and no line has two: a line about
which collecting tells something has nothing to be told on emitting. -/

set_option autoImplicit false

namespace TwoPass

/-! ### Where a diagnostic stands -/

def Diagnostic.line? (diagnostic : Diagnostic) : Option Int :=
  diagnostic.location.map Location.line

theorem Line.number_of_read {raw file : Text} {number : Int} {line : Line}
    (read : Line.read raw file number = .ok line) : line.number = number :=
  (Line.read_eq_ok_iff.mp read).2.1

theorem Line.line?_of_read_error {raw file : Text} {number : Int} {found : Problem}
    (failed : Line.read raw file number = .error found) :
    (Diagnostic.problem found).line? = some number := by
  obtain ⟨fault, offset, -, rfl⟩ := Line.read_eq_error failed
  rfl

theorem Entry.line?_of_refused {line : Line} {found : Problem} (content : line.body = .content)
    (failed : Entry.ofCode line = .error (.problem found)) :
    (Diagnostic.problem found).line? = some line.number := by
  rcases Entry.ofCode_refused content failed with ⟨fault, offset, same⟩ | ⟨fault, other, -⟩
  · cases same
    rfl
  · cases other

theorem Placed.number_of_line? {file raw : Text} {number : Nat} {inside after : Option Section}
    {entry : Entry} {line : Line} (placed : Placed file number inside raw after entry)
    (own : entry.line? = some line) : line.number = number := by
  cases placed with
  | unread failed => cases own
  | code read code valid =>
    cases own
    rw [valid.line_eq, Line.number_of_read read]
  | passive read | stray read | item read | refused read =>
    cases own
    exact Line.number_of_read read

@[simp] theorem Settings.line?_told (settings : Settings) (found : Problem) :
    (settings.told found).line? = (Diagnostic.problem found).line? := by
  unfold Settings.told
  split
  · unfold Problem.downgraded
    split <;> rfl
  · rfl

/-! ### What emitting tells -/

namespace Line.Referred

variable {line : Line} {found : Problem}

theorem line?_eq (referred : line.Referred found) :
    (Diagnostic.problem found).line? = some line.number := by
  cases referred <;> rfl

/-- An undefined label is fatal unless it is allowed; a branch that is too far always is. -/
theorem told (referred : line.Referred found) (settings : Settings) :
    (settings.told found).category? = some .undefinedLabel ∧
        (settings.told found).severity = (if settings.allowUndefined then .error else .fatal) ∨
      (settings.told found).category? = some .branchRange ∧
        (settings.told found).severity = .fatal := by
  unfold Settings.told
  cases referred with
  | undefined table offset name =>
    apply Or.inl
    cases settings.allowUndefined <;> exact ⟨rfl, rfl⟩
  | branchRange name distance offset =>
    apply Or.inr
    cases settings.allowUndefined <;> exact ⟨rfl, rfl⟩

end Line.Referred

namespace Placement

variable {settings : Settings} {table : SymbolTable} {placement : Placement}

theorem referred_of_toldOnEmitting {diagnostic : Diagnostic}
    (member : diagnostic ∈ placement.toldOnEmitting settings table) :
    ∃ line found, placement.entry.line? = some line ∧ line.Referred found ∧
      placement.toldOnEmitting settings table = [settings.told found] := by
  unfold toldOnEmitting at member ⊢
  split at member
  · next line entry =>
    cases told : line.itemProblem? table with
    | none => simp [told] at member
    | some found => exact ⟨line, found, by rw [entry]; rfl, .of_itemProblem? told, rfl⟩
  · next statement instruction shape entry =>
    cases told : statement.labelProblem? table shape placement.address with
    | none => simp [told] at member
    | some found => exact ⟨statement.line, found, by rw [entry]; rfl, .of_labelProblem? told, rfl⟩
  · cases member

end Placement

/-! ### At most one for each line -/

def Single (number : Nat) (diagnostics : List Diagnostic) : Prop :=
  (diagnostics.map Diagnostic.line?).Sublist [some (number : Int)]

theorem Single.nil (number : Nat) : Single number [] := List.nil_sublist _

theorem Single.singleton {number : Nat} {diagnostic : Diagnostic}
    (about : diagnostic.line? = some (number : Int)) : Single number [diagnostic] := by
  rw [Single, List.map_singleton, about]

namespace Placement

variable {settings : Settings} {table : SymbolTable} {file raw : Text} {inside : Option Section}
  {placement : Placement}

theorem toldOnCollecting_single (before : List Placement)
    (placed : Placed file placement.number inside raw placement.inside placement.entry) :
    Single placement.number (placement.toldOnCollecting before) := by
  obtain ⟨number, after, address, entry⟩ := placement
  dsimp only at placed
  cases placed with
  | unread failed => exact .singleton (Line.line?_of_read_error failed)
  | refused read content code failed =>
    refine .singleton ?_
    rw [Entry.line?_of_refused content failed, Line.number_of_read read]
  | @stray line read =>
    refine .singleton ?_
    rw [← Line.number_of_read read]
    rfl
  | @passive line read =>
    have own : line.number = number := Line.number_of_read read
    unfold toldOnCollecting
    dsimp only
    split
    · split
      · split
        · exact .nil number
        · exact .singleton (congrArg some own)
      · exact .singleton (congrArg some own)
    · exact .nil number
  | item | code => exact .nil number

theorem toldOnEmitting_eq_nil {before : List Placement}
    (told : placement.toldOnCollecting before ≠ []) :
    placement.toldOnEmitting settings table = [] := by
  unfold toldOnCollecting at told
  unfold toldOnEmitting
  split at told
  · next entry => rw [entry]
  · next entry => rw [entry]
  · next entry => rw [entry]
  · exact absurd rfl told
  · exact absurd rfl told

theorem toldOnEmitting_single
    (placed : Placed file placement.number inside raw placement.inside placement.entry) :
    Single placement.number (placement.toldOnEmitting settings table) := by
  cases told : placement.toldOnEmitting settings table with
  | nil => exact .nil _
  | cons diagnostic rest =>
    obtain ⟨line, found, entry, referred, alone⟩ := @referred_of_toldOnEmitting settings table
      placement diagnostic (by rw [told]; exact List.mem_cons_self)
    rw [← told, alone]
    refine .singleton ?_
    rw [settings.line?_told, referred.line?_eq, placed.number_of_line? entry]

/-- Both passes together tell at most one thing about a line. -/
theorem told_single (before : List Placement)
    (placed : Placed file placement.number inside raw placement.inside placement.entry) :
    Single placement.number
      (placement.toldOnCollecting before ++ placement.toldOnEmitting settings table) := by
  by_cases silent : placement.toldOnCollecting before = []
  · rw [silent]
    exact toldOnEmitting_single placed
  · rw [toldOnEmitting_eq_nil silent, List.append_nil]
    exact toldOnCollecting_single before placed

theorem lines_subperm {placements : List Placement} (before : List Placement)
    (placed : ∀ placement ∈ placements, ∃ inside raw,
      Placed file placement.number inside raw placement.inside placement.entry) :
    ((collectingDiagnostics before placements ++
        placements.flatMap (toldOnEmitting settings table)).map Diagnostic.line?).Subperm
      (placements.map fun placement => some (placement.number : Int)) := by
  induction placements generalizing before with
  | nil => exact List.Subperm.refl []
  | cons placement rest ih =>
    rw [List.forall_mem_cons] at placed
    obtain ⟨⟨inside, raw, own⟩, others⟩ := placed
    have single := @told_single settings table file raw inside placement before own
    -- what the two passes tell about the first line is brought together
    have together : List.Perm
        (collectingDiagnostics before (placement :: rest) ++
          (placement :: rest).flatMap (toldOnEmitting settings table))
        ((placement.toldOnCollecting before ++ placement.toldOnEmitting settings table) ++
          (collectingDiagnostics (before ++ [placement]) rest ++
            rest.flatMap (toldOnEmitting settings table))) := by
      rw [collectingDiagnostics, List.flatMap_cons, List.append_assoc, List.append_assoc]
      apply List.Perm.append_left
      rw [← List.append_assoc, ← List.append_assoc]
      exact List.perm_append_comm.append_right _
    refine (together.map _).subperm.trans ?_
    rw [List.map_append]
    exact List.Subperm.append single.subperm (ih _ others)

end Placement

/-! ### Whole runs -/

namespace Placement

theorem diagnostics_sublist (settings : Settings) (placements : List Placement) :
    (diagnostics settings placements).Sublist
      (collectingDiagnostics [] placements ++ emittingDiagnostics settings placements) := by
  unfold diagnostics
  dsimp only
  split
  · exact List.Sublist.refl _
  · exact List.sublist_append_left _ _

/-- Everything that collecting tells is recorded where the limit is not reached on collecting. -/
theorem mem_upToFatal_of_collecting {settings : Settings} {placements : List Placement}
    {diagnostic : Diagnostic} {room : Nat}
    (few : fatalCount (collectingDiagnostics [] placements) < room)
    (member : diagnostic ∈ collectingDiagnostics [] placements) :
    diagnostic ∈ upToFatal room (diagnostics settings placements) := by
  unfold diagnostics
  dsimp only
  split
  · rw [upToFatal_append_of_lt few]
    exact List.mem_append_left _ member
  · rwa [upToFatal_of_lt few]

theorem exists_of_mem_collecting {before placements : List Placement} {diagnostic : Diagnostic}
    (told : diagnostic ∈ collectingDiagnostics before placements) :
    ∃ placement ∈ placements, ∃ earlier, diagnostic ∈ placement.toldOnCollecting earlier := by
  induction placements generalizing before with
  | nil => cases told
  | cons placement rest ih =>
    rcases List.mem_append.mp told with own | later
    · exact ⟨placement, List.mem_cons_self, before, own⟩
    · obtain ⟨other, member, earlier, own⟩ := ih later
      exact ⟨other, List.mem_cons_of_mem placement member, earlier, own⟩

theorem mem_collecting_of_told {before placements : List Placement} {placement : Placement}
    {diagnostic : Diagnostic} (member : placement ∈ placements)
    (told : ∀ before, diagnostic ∈ placement.toldOnCollecting before) :
    diagnostic ∈ collectingDiagnostics before placements := by
  induction placements generalizing before with
  | nil => cases member
  | cons other rest ih =>
    rw [collectingDiagnostics, List.mem_append]
    rcases List.mem_cons.mp member with rfl | later
    · exact .inl (told before)
    · exact .inr (ih later)

theorem mem_collecting_of_rejected {before placements : List Placement} {placement : Placement}
    {line : Option Line} {found : Problem} (member : placement ∈ placements)
    (entry : placement.entry = .rejected line found) :
    .problem found ∈ collectingDiagnostics before placements := by
  apply mem_collecting_of_told member
  intro before
  simp [toldOnCollecting, entry]

end Placement

theorem Laid.of_layFrom (file : Text) (cursor : Cursor) (lines : List Text) :
    ∃ front after, front <+: lines ∧ Laid file cursor front
      (Layout.layFrom file cursor.number cursor.inside cursor.address lines).placements after := by
  induction lines generalizing cursor with
  | nil => exact ⟨[], cursor, List.nil_prefix, .nil cursor⟩
  | cons raw rest ih =>
    unfold Layout.layFrom
    split
    · exact ⟨[], cursor, List.nil_prefix, .nil cursor⟩
    · next placement becomes =>
      obtain ⟨number, address, placed⟩ := Placement.ofRaw_eq_ok_iff.mp becomes
      obtain ⟨front, after, begins, laid⟩ := ih placement.after
      rw [Placement.after, number] at laid
      refine ⟨raw :: front, after, List.cons_prefix_cons.mpr ⟨rfl, begins⟩, ?_⟩
      refine .cons number address placed ?_
      rw [Placement.after, number]
      exact laid

theorem Placement.nodup_lines (settings : Settings) (table : SymbolTable) (file : Text)
    (lines : List Text) :
    let placements := (Layout.ofLines settings.base file lines).placements
    ((collectingDiagnostics [] placements ++
      placements.flatMap (toldOnEmitting settings table)).map Diagnostic.line?).Nodup := by
  intro placements
  obtain ⟨front, after, -, laid⟩ : ∃ front after, front <+: lines ∧
      Laid file settings.start front placements after := Laid.of_layFrom file settings.start lines
  have numbers : (placements.map Placement.number).Nodup := by
    rw [laid.numbers_eq]
    exact List.nodup_range'
  have lineNumbers : (placements.map fun placement => some (placement.number : Int)).Nodup := by
    have distinct : Function.Injective fun number : Nat => some (number : Int) := by
      intro first second same
      simpa using same
    have mapped := numbers.map distinct
    rwa [List.map_map] at mapped
  obtain ⟨told, permuted, part⟩ :=
    @Placement.lines_subperm settings table file placements [] laid.placed_of_mem
  exact permuted.nodup_iff.mp (part.nodup lineNumbers)

theorem Run.room_initial (settings : Settings) :
    (Run.initial settings).report.Room settings.maxErrors :=
  (Int.zero_add _).symm

theorem FirstPass.start_recorded {settings : Settings} {file : Text} {placements : List Placement}
    {first : FirstPass} {stop : Option Problem}
    (collected : (FirstPass.start settings file).observeAll placements = (first, stop)) :
    Report.Recorded (Run.initial settings).report settings.maxErrors
      (Placement.collectingDiagnostics [] placements) first.journal.report stop := by
  have unbound : (FirstPass.start settings file).Bound [] := rfl
  exact observeAll_recorded unbound (Run.room_initial settings) settings.maxErrors_pos collected

namespace Run

variable {settings : Settings} {file : Text} {lines : List Text} {placements : List Placement}
  {finish : Nat} {first : FirstPass} {second : SecondPass}

theorem Collects.harmless (collects : Collects settings file lines placements finish first) :
    fatalCount (Placement.collectingDiagnostics [] placements) = 0 := by
  have recorded := FirstPass.start_recorded collects.ended
  have clean := recorded.toGrown.clean collects.clean
  rw [upToFatal_of_lt (recorded.goesOn.mp rfl)] at clean
  exact fatalCount_eq_zero_iff.mpr clean.2

theorem Collects.table_eq (collects : Collects settings file lines placements finish first) :
    first.symbols.freeze = Placement.table placements := by
  have completed := FirstPass.observeAll_completed rfl collects.ended collects.clean
  rw [SymbolTable.freeze, completed.symbols]
  rfl

theorem Collects.recorded {stop : Option Failure}
    (collects : Collects settings file lines placements finish first)
    (emitted : SecondPass.observeAll settings first.symbols.freeze (first.handOver file finish)
      placements = (second, stop)) :
    Report.Recorded (initial settings).report settings.maxErrors
      (Placement.diagnostics settings placements) second.journal.report stop := by
  have collecting := FirstPass.start_recorded collects.ended
  have completed := FirstPass.observeAll_completed rfl collects.ended collects.clean
  obtain ⟨after, -, laid⟩ := collects.laid
  have emitting : placements.flatMap (fun placement => Emission.toldBy
        (Emission.ofPlacement settings (Placement.table placements) placement)) =
      Placement.emittingDiagnostics settings placements := by
    refine List.flatMap_congr fun placement member => ?_
    obtain ⟨inside, raw, placed⟩ := laid.placed_of_mem placement member
    exact Emission.toldBy_ofPlacement placed (completed.accepted placement member)
  have written := laid.problem_of_ofPlacement settings (Placement.table placements)
  rw [collects.table_eq] at emitted
  obtain ⟨roomy, positive⟩ := collecting.room_left (room_initial settings)
  rw [Placement.diagnostics, if_pos collects.harmless, ← emitting]
  exact collecting.append (SecondPass.observeAll_recorded written roomy positive emitted)

/-- A run that has told of all diagnostics up to the limit. It returns exactly if none is fatal. -/
structure Tells (settings : Settings) (all : List Diagnostic) (run : Run) : Prop where
  fatal : run.report.fatal.length = fatalCount (upToFatal settings.maxErrors all)
  recorded : run.report.diagnostics = upToFatal settings.maxErrors all
  delivered : run.report.delivered = upToFatal settings.maxErrors all
  returns : run.outcome = .ok () ↔ fatalCount all = 0

theorem length_fatal {α : Type} {all : List Diagnostic} {report : Report} {stop : Option α}
    (recorded : Report.Recorded (initial settings).report settings.maxErrors all report stop) :
    report.fatal.length = fatalCount (upToFatal settings.maxErrors all) :=
  recorded.length_fatal.trans (Nat.zero_add _)

section
variable {α : Type} {all : List Diagnostic} {run : Run}

theorem Tells.of_stopped {reason : α}
    (recorded : Report.Recorded (initial settings).report settings.maxErrors all run.report
      (some reason))
    (failed : run.outcome ≠ .ok ()) : Tells settings all run := by
  refine ⟨length_fatal recorded, recorded.diagnostics, recorded.delivered, iff_of_false failed ?_⟩
  have reached := recorded.room_le
  have positive := settings.maxErrors_pos
  omega

theorem Tells.of_ended
    (recorded : Report.Recorded (initial settings).report settings.maxErrors all run.report
      (none : Option α))
    (returns : run.outcome = .ok () ↔ run.report.hasFatal = false) : Tells settings all run := by
  refine ⟨length_fatal recorded, recorded.diagnostics, recorded.delivered, returns.trans ?_⟩
  rw [Report.hasFatal_eq_false_iff, length_fatal recorded, upToFatal_of_lt (recorded.goesOn.mp rfl)]

/-- If collecting tells of something fatal, that is all there is to be told. -/
theorem Tells.of_collecting {placements : List Placement}
    (tells : Tells settings (Placement.collectingDiagnostics [] placements) run)
    (failed : run.outcome ≠ .ok ()) :
    Tells settings (Placement.diagnostics settings placements) run := by
  have fatal := mt tells.returns.mpr failed
  rwa [Placement.diagnostics, if_neg fatal]

end

theorem tells (converted : ∀ fault, (Run.ofLines settings file lines).outcome ≠
      .error (.numeral fault)) :
    Tells settings (Placement.diagnostics settings (Layout.ofLines settings.base file lines).placements)
      (Run.ofLines settings file lines) := by
  have went := course settings file lines
  generalize Run.ofLines settings file lines = run at went converted
  have same {placements : List Placement} {finish : Nat} {first : FirstPass}
      (collects : Collects settings file lines placements finish first) :
      (Layout.ofLines settings.base file lines).placements = placements :=
    congrArg Layout.placements collects.layout
  cases went with
  | stopped collected =>
    exact .of_collecting (.of_stopped (FirstPass.start_recorded collected) nofun) nofun
  | interrupted collected unplaced =>
    obtain ⟨-, -, -, -, fault, -, -, rfl⟩ := Layout.inconvertible_of_layFrom unplaced
    exact absurd rfl (converted fault)
  | rejected collected placed fatal =>
    refine .of_collecting (.of_ended (FirstPass.start_recorded collected) ?_) nofun
    exact iff_of_false nofun (by simp [report, fatal])
  | halted collects emitted =>
    rw [same collects]
    exact .of_stopped (collects.recorded emitted) nofun
  | failed collects emitted fatal =>
    rw [same collects]
    exact .of_ended (collects.recorded emitted) (iff_of_false nofun (by simp [report, fatal]))
  | returned collects emits =>
    rw [same collects]
    exact .of_ended (collects.recorded emits.ended) (iff_of_true rfl emits.clean)

theorem numbers_of_converted (converted : ∀ fault, (Run.ofLines settings file lines).outcome ≠
      .error (.numeral fault)) :
    let placements := (Layout.ofLines settings.base file lines).placements
    placements.map Placement.number = List.range' 1 lines.length ∨
      settings.maxErrors ≤ fatalCount (Placement.collectingDiagnostics [] placements) := by
  intro placements
  have went := course settings file lines
  generalize Run.ofLines settings file lines = run at went converted
  cases went with
  | stopped collected => exact .inr (FirstPass.start_recorded collected).room_le
  | interrupted collected unplaced =>
    obtain ⟨-, -, -, -, fault, -, -, rfl⟩ := Layout.inconvertible_of_layFrom unplaced
    exact absurd rfl (converted fault)
  | rejected collected placed fatal => exact .inl (Layout.numbers_of_finish placed)
  | halted collects | failed collects | returned collects =>
    exact .inl (Layout.numbers_of_finish (congrArg Layout.finish collects.layout))

/-- What a run tells is complete, in order and never repeated. It records all that is to be told on
collecting and, if none of that is fatal, all that is to be told on emitting, up to the fatal problem
that reaches the limit; the same is delivered. It returns exactly if nothing fatal is recorded. No two
diagnostics are about one line. Emitting tells of undefined labels, fatal unless they are allowed,
and of branches that are too far. Every line is seen unless the limit is reached, and a line that is
rejected, as is a malformed pseudo-instruction, is then told about exactly once. -/
theorem diagnostics_complete (settings : Settings) (file : Text) (lines : List Text)
    (converted : ∀ fault, (Run.ofLines settings file lines).outcome ≠ .error (.numeral fault)) :
    let run := Run.ofLines settings file lines
    let placements := (Layout.ofLines settings.base file lines).placements
    let collecting := Placement.collectingDiagnostics [] placements
    let emitting := Placement.emittingDiagnostics settings placements
    run.report.diagnostics = upToFatal settings.maxErrors
        (if fatalCount collecting = 0 then collecting ++ emitting else collecting) ∧
      run.report.delivered = run.report.diagnostics ∧
      (run.outcome = .ok () ↔
        ∀ diagnostic ∈ run.report.diagnostics, diagnostic.severity ≠ .fatal) ∧
      (run.report.diagnostics.map Diagnostic.line?).Nodup ∧
      (∀ diagnostic ∈ emitting,
        diagnostic.category? = some .undefinedLabel ∧
            diagnostic.severity = (if settings.allowUndefined then .error else .fatal) ∨
          diagnostic.category? = some .branchRange ∧ diagnostic.severity = .fatal) ∧
      (placements.map Placement.number = List.range' 1 lines.length ∨
        settings.maxErrors ≤ fatalCount collecting) ∧
      (fatalCount collecting < settings.maxErrors → ∀ placement ∈ placements, ∀ line found,
        placement.entry = .rejected line found →
          run.report.diagnostics.count (.problem found) = 1) := by
  intro run placements collecting emitting
  have told := tells converted
  have distinct : (run.report.diagnostics.map Diagnostic.line?).Nodup := by
    have all := Placement.nodup_lines settings (Placement.table placements) file lines
    have recorded : run.report.diagnostics.Sublist (collecting ++ emitting) := by
      rw [told.recorded]
      exact (upToFatal_begins _ _).sublist.trans (Placement.diagnostics_sublist settings placements)
    exact (recorded.map _).nodup all
  refine ⟨told.recorded, told.delivered.trans told.recorded.symm, ?_, distinct, ?_,
    numbers_of_converted converted, ?_⟩
  · rw [told.returns, ← fatalCount_eq_zero_iff, told.recorded, fatalCount_upToFatal]
    have positive := settings.maxErrors_pos
    omega
  · intro diagnostic member
    obtain ⟨placement, -, own⟩ := List.mem_flatMap.mp member
    obtain ⟨line, found, -, referred, alone⟩ := Placement.referred_of_toldOnEmitting own
    rw [alone, List.mem_singleton] at own
    rw [own]
    exact referred.told settings
  · intro few placement member line found entry
    apply List.count_eq_one_of_mem distinct.of_map
    rw [told.recorded]
    apply Placement.mem_upToFatal_of_collecting few
    exact Placement.mem_collecting_of_rejected member entry

/-- Content in front of every directive, a malformed pseudo-instruction, a label that is bound twice and
one that is not bound are told about in this order, and the malformed line once. -/
theorem diagnostics_complete_mixed :
    let settings : Settings := { allowUndefined := true }
    let lines : List Text := ["halt", ":A", ".code", "\tpush 5", ":A", "\tbrr :B"]
    let run := Run.ofLines settings "demo" lines
    (∀ fault, run.outcome ≠ .error (.numeral fault)) ∧
      run.report.diagnostics.map Diagnostic.severity = [.warning, .error, .warning, .error] ∧
      run.report.delivered = run.report.diagnostics ∧ run.outcome = .ok () ∧
      ∃ placement ∈ (Layout.ofLines settings.base "demo" lines).placements, ∃ line found,
        placement.entry = .rejected line found ∧ found.severity = .error ∧
          run.report.diagnostics.count (.problem found) = 1 := by
  intro settings lines run
  have returned : run.outcome = .ok () := rfl
  have converted : ∀ fault, run.outcome ≠ .error (.numeral fault) := by
    intro fault failed
    rw [returned] at failed
    cases failed
  obtain ⟨recorded, delivered, -, -, -, -, once⟩ :=
    diagnostics_complete settings "demo" lines converted
  refine ⟨converted, ?_, delivered, returned, ?_⟩
  · rw [recorded]
    decide +kernel
  · have few : fatalCount (Placement.collectingDiagnostics []
        (Layout.ofLines settings.base "demo" lines).placements) < settings.maxErrors := by
      decide +kernel
    have fourth : (Layout.ofLines settings.base "demo" lines).placements[3]? = some _ := rfl
    have member := List.mem_of_getElem? fourth
    exact ⟨_, member, _, _, rfl, rfl, once few _ member _ _ rfl⟩

end Run

end TwoPass
