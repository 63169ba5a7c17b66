import TwoPass.Proofs.Emission

/-! Runs that return.

A run returns exactly if both passes come to their end without a fatal problem. Then its lines are
laid out from the base address, its table is made of the labels of that layout, and its output is
what the layout gives rise to under that table. -/

set_option autoImplicit false

namespace TwoPass

def Settings.start (settings : Settings) : Cursor := ⟨1, none, settings.base⟩

def Diagnostic.category? : Diagnostic → Option Category
  | .problem found => some found.fault.category
  | .warning .. => none

def FirstPass.start (settings : Settings) (file : Text) : FirstPass :=
  ⟨(Run.initial settings).symbols, (Run.initial settings).journal.note (.collecting file)⟩

def FirstPass.handOver (first : FirstPass) (file : Text) (finish : Nat) : SecondPass :=
  { journal := (first.journal.note (.collected first.symbols.freeze.size finish)).note
      (.emitting file)
    output := []
    listing := []
    written := none }

namespace Run

variable {settings : Settings} {file : Text} {lines : List Text} {placements : List Placement}
  {finish : Nat} {first : FirstPass} {second : SecondPass}

structure Collects (settings : Settings) (file : Text) (lines : List Text)
    (placements : List Placement) (finish : Nat) (first : FirstPass) : Prop where
  layout : Layout.ofLines settings.base file lines = ⟨placements, .ok finish⟩
  ended : (FirstPass.start settings file).observeAll placements = (first, none)
  clean : first.journal.report.hasFatal = false

structure Emits (settings : Settings) (file : Text) (placements : List Placement) (finish : Nat)
    (first : FirstPass) (second : SecondPass) : Prop where
  ended : SecondPass.observeAll settings first.symbols.freeze (first.handOver file finish)
    placements = (second, none)
  clean : second.journal.report.hasFatal = false

theorem ofLines_eq_resume (settings : Settings) (file : Text) (lines : List Text) :
    Run.ofLines settings file lines = resume settings (initial settings) file lines := rfl

theorem Collects.ofLines_eq (collects : Collects settings file lines placements finish first) :
    Run.ofLines settings file lines =
      emit settings (Run.initial settings) file placements finish first := by
  have ended := collects.ended
  unfold FirstPass.start at ended
  rw [ofLines_eq_resume]
  unfold resume
  simp [collects.layout, ended, collects.clean]

theorem Emits.emit_eq (emits : Emits settings file placements finish first second) :
    emit settings (initial settings) file placements finish first =
      ⟨first.symbols.freeze, second.journal.note (.emitted second.output.length), second.output,
        second.listing, second.written, finish, .ok ()⟩ := by
  have ended := emits.ended
  unfold FirstPass.handOver at ended
  unfold emit
  simp [initial, ended, emits.clean]

/-- Every way in which a run can go, and what it leaves. -/
inductive Course (settings : Settings) (file : Text) (lines : List Text) : Run → Prop
  /-- The first pass reaches the limit. -/
  | stopped {first : FirstPass} {found : Problem}
    (collected : (FirstPass.start settings file).observeAll
      (Layout.ofLines settings.base file lines).placements = (first, some found)) :
    Course settings file lines
      ⟨first.symbols, first.journal, [], [], none, settings.base, .error (.problem found)⟩
  /-- The layout comes to a line that cannot be placed. -/
  | interrupted {first : FirstPass} {failure : Failure}
    (collected : (FirstPass.start settings file).observeAll
      (Layout.ofLines settings.base file lines).placements = (first, none))
    (unplaced : (Layout.ofLines settings.base file lines).finish = .error failure) :
    Course settings file lines
      ⟨first.symbols, first.journal, [], [], none, settings.base, .error failure⟩
  /-- The first pass ends with fatal problems. -/
  | rejected {first : FirstPass} {finish : Nat}
    (collected : (FirstPass.start settings file).observeAll
      (Layout.ofLines settings.base file lines).placements = (first, none))
    (placed : (Layout.ofLines settings.base file lines).finish = .ok finish)
    (fatal : first.journal.report.hasFatal = true) :
    Course settings file lines ⟨first.symbols, first.journal, [], [], none, finish,
      .error (.problem first.journal.report.failure)⟩
  /-- The second pass stops. -/
  | halted {placements : List Placement} {finish : Nat} {first : FirstPass} {second : SecondPass}
    {failure : Failure} (collects : Collects settings file lines placements finish first)
    (emitted : SecondPass.observeAll settings first.symbols.freeze (first.handOver file finish)
      placements = (second, some failure)) :
    Course settings file lines ⟨first.symbols.freeze, second.journal, second.output,
      second.listing, second.written, finish, .error failure⟩
  /-- The second pass ends with fatal problems. -/
  | failed {placements : List Placement} {finish : Nat} {first : FirstPass} {second : SecondPass}
    (collects : Collects settings file lines placements finish first)
    (emitted : SecondPass.observeAll settings first.symbols.freeze (first.handOver file finish)
      placements = (second, none))
    (fatal : second.journal.report.hasFatal = true) :
    Course settings file lines ⟨first.symbols.freeze, second.journal, second.output,
      second.listing, second.written, finish, .error (.problem second.journal.report.failure)⟩
  | returned {placements : List Placement} {finish : Nat} {first : FirstPass} {second : SecondPass}
    (collects : Collects settings file lines placements finish first)
    (emits : Emits settings file placements finish first second) :
    Course settings file lines
      ⟨first.symbols.freeze, second.journal.note (.emitted second.output.length), second.output,
        second.listing, second.written, finish, .ok ()⟩

theorem course_emit (collects : Collects settings file lines placements finish first) :
    Course settings file lines (emit settings (initial settings) file placements finish first) := by
  generalize emitted : SecondPass.observeAll settings first.symbols.freeze
    (first.handOver file finish) placements = result
  obtain ⟨second, stop⟩ := result
  have observed := emitted
  unfold FirstPass.handOver at observed
  unfold emit
  simp only [initial, observed]
  cases stop with
  | some failure => exact .halted collects emitted
  | none =>
    dsimp only
    split
    · next fatal => exact .failed collects emitted fatal
    · next clean => exact .returned collects ⟨emitted, by simpa using clean⟩

theorem course (settings : Settings) (file : Text) (lines : List Text) :
    Course settings file lines (Run.ofLines settings file lines) := by
  generalize collected : (FirstPass.start settings file).observeAll
    (Layout.ofLines settings.base file lines).placements = result
  obtain ⟨first, stop⟩ := result
  have observed := collected
  unfold FirstPass.start at observed
  rw [ofLines_eq_resume]
  unfold resume
  simp only [observed]
  split
  · exact .stopped collected
  · next failure unplaced => exact .interrupted collected unplaced
  · next finish placed =>
    split
    · next fatal => exact .rejected collected placed fatal
    · next clean =>
      refine course_emit ⟨?_, collected, by simpa using clean⟩
      rw [← placed]

theorem completes_of_outcome (returned : (Run.ofLines settings file lines).outcome = .ok ()) :
    ∃ placements finish first second, Collects settings file lines placements finish first ∧
      Emits settings file placements finish first second := by
  have went := course settings file lines
  generalize Run.ofLines settings file lines = run at went returned
  cases went with
  | returned collects emits => exact ⟨_, _, _, _, collects, emits⟩
  | _ => cases returned

theorem hasFatal_of_outcome (returned : (Run.ofLines settings file lines).outcome = .ok ()) :
    (Run.ofLines settings file lines).report.hasFatal = false := by
  obtain ⟨placements, finish, first, second, collects, emits⟩ := completes_of_outcome returned
  rw [collects.ofLines_eq, emits.emit_eq]
  exact emits.clean

structure Assembled (settings : Settings) (file : Text) (lines : List Text) (run : Run)
    (placements : List Placement) (finish : Cursor) : Prop where
  laid : Laid file settings.start lines placements finish
  accepted : ∀ placement ∈ placements, ∀ line found, placement.entry = .rejected line found →
    found.isFatal = false
  addresses : ∀ placement ∈ placements, ∀ symbol, placement.symbol? = some symbol →
    symbol.address ≤ Machine.maxAddress
  symbols : run.symbols =
    ⟨SymbolTable.insertAll [] (placements.filterMap Placement.symbol?), true⟩
  ended : run.finish = finish.address
  emitted : Emitted settings run.symbols none placements run.output run.listing
  reported : ∀ placement ∈ placements, ∀ emission,
    Emission.ofPlacement settings run.symbols placement = .ok emission →
      emission.told ⊆ run.report.diagnostics

theorem assembled_of_outcome (returned : (Run.ofLines settings file lines).outcome = .ok ()) :
    ∃ placements finish,
      Assembled settings file lines (Run.ofLines settings file lines) placements finish := by
  obtain ⟨placements, finish, first, second, collects, emits⟩ := completes_of_outcome returned
  rw [collects.ofLines_eq, emits.emit_eq]
  obtain ⟨after, rfl, laid⟩ := (@Laid.layFrom_eq_iff _ _ settings.start _ _).mp collects.layout
  have completed := FirstPass.observeAll_completed rfl collects.ended collects.clean
  obtain ⟨output, listing, written⟩ := SecondPass.observeAll_completed emits.ended emits.clean
  -- the second pass began with nothing written
  have wholeOutput : second.output = output := written.output
  have wholeListing : second.listing = listing := written.listing
  refine ⟨placements, after, laid, completed.accepted, completed.addresses, ?_, rfl, ?_,
    written.reported⟩
  · rw [SymbolTable.freeze, completed.symbols]
    rfl
  · rw [wholeOutput, wholeListing]
    exact written.emitted

theorem Assembled.placements_eq {run : Run} {after : Cursor}
    (assembled : Assembled settings file lines run placements after) :
    (Layout.ofLines settings.base file lines).placements = placements := by
  have layout := (@Laid.layFrom_eq_iff _ _ settings.start _ _).mpr ⟨after, rfl, assembled.laid⟩
  exact congrArg Layout.placements layout

theorem outcome_of_result {run : Run} {output : List Text} (returned : run.result = .ok output) :
    run.outcome = .ok () ∧ run.outputLines = output := by
  unfold result at returned
  cases outcome : run.outcome with
  | error failure =>
    rw [outcome] at returned
    cases returned
  | ok value =>
    rw [outcome] at returned
    cases returned
    exact ⟨rfl, rfl⟩

theorem Assembled.address_le {run : Run} {after : Cursor}
    (assembled : Assembled settings file lines run placements after) {name : Text} {symbol : Symbol}
    (bound : run.symbols.find? name = some symbol) :
    symbol.address ≤ Machine.maxAddress := by
  rw [assembled.symbols] at bound
  have made : symbol ∈ placements.filterMap Placement.symbol? := by
    rw [SymbolTable.find?, SymbolTable.find?_insertAll, List.find?_nil, Option.or_none] at bound
    exact List.mem_reverse.mp (List.mem_of_find?_eq_some bound)
  obtain ⟨placement, member, same⟩ := List.mem_filterMap.mp made
  exact assembled.addresses placement member symbol same

/-- Lines that make no diagnostic and bind no label are assembled to what they give rise to. -/
theorem ofLines_of_quiet {after : Cursor} {output : List OutputLine} {listing : List ListingEntry}
    (laid : Laid file settings.start lines placements after)
    (quiet : ∀ placement ∈ placements, ∀ pass : FirstPass, pass.observe placement = (pass, none))
    (emitted : Emitted settings ⟨[], true⟩ none placements output listing)
    (silent : ∀ placement ∈ placements, ∀ emission,
      Emission.ofPlacement settings ⟨[], true⟩ placement = .ok emission → emission.told = []) :
    let run := Run.ofLines settings file lines
    run.result = .ok (output.map OutputLine.render) ∧ run.finish = after.address ∧
      run.report.diagnostics = [] ∧ run.symbols.symbols = [] := by
  have layout := (@Laid.layFrom_eq_iff _ _ settings.start _ _).mpr ⟨after, rfl, laid⟩
  have collects : Collects settings file lines placements after.address
      (FirstPass.start settings file) :=
    ⟨layout, FirstPass.observeAll_quiet _ fun placement member => quiet placement member _, rfl⟩
  obtain ⟨second, ended, all, grown⟩ :=
    @SecondPass.observeAll_of_emitted settings ⟨[], true⟩ placements
      ((FirstPass.start settings file).handOver file after.address) output listing emitted silent
  have emits : Emits settings file placements after.address (FirstPass.start settings file)
      second := ⟨ended, Report.hasFatal_eq_false_iff.mpr grown.length_fatal⟩
  have written : second.output = output := all
  dsimp only
  rw [collects.ofLines_eq, emits.emit_eq]
  refine ⟨?_, rfl, grown.diagnostics, rfl⟩
  rw [← written]
  rfl

def Resolved (run : Run) : Prop :=
  ∀ diagnostic ∈ run.report.diagnostics, diagnostic.category? ≠ some .undefinedLabel

instance (run : Run) : Decidable run.Resolved :=
  inferInstanceAs (Decidable (∀ diagnostic ∈ run.report.diagnostics,
    diagnostic.category? ≠ some .undefinedLabel))

theorem Assembled.silent {run : Run} {after : Cursor}
    (assembled : Assembled settings file lines run placements after)
    (resolved : settings.allowUndefined = false ∨ run.Resolved) :
    ∀ placement ∈ placements, ∀ emission,
      Emission.ofPlacement settings run.symbols placement = .ok emission → emission.told = [] := by
  intro placement member emission emits
  rcases resolved with strict | resolved
  · exact Emission.told_of_strict strict emits
  · rcases Emission.told_of_ofPlacement emits with silent | ⟨-, found, told, missing⟩
    · exact silent
    · have reported : .problem found ∈ run.report.diagnostics :=
        assembled.reported placement member emission emits (told ▸ List.mem_singleton_self _)
      exact absurd (congrArg some missing) (resolved _ reported)

end Run

end TwoPass
