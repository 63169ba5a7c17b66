import TwoPass.Proofs.Completeness
import TwoPass.Proofs.Extent

/-! The share of each line in the output, and which programs are assembled.

The second pass goes on behind a line that has a problem, so every line that it comes to has a share
in the output, if only an empty one. A run returns exactly if its lines can all be placed, no line is
rejected for good, all labels have addresses of 32 bits and every line can be written. -/

set_option autoImplicit false

namespace TwoPass

/-- What is written for a placement: nothing where there is a problem. -/
def Placement.emission (settings : Settings) (table : SymbolTable) (placement : Placement) : Emission :=
  match Emission.ofPlacement settings table placement with
  | .ok emission => emission
  | .error _ => .nothing

/-- The share of each placement in the output, where `written` is the section of the last directive
in front of them. -/
def outputShares (settings : Settings) (table : SymbolTable) (written : Option Section) :
    List Placement → List (List OutputLine)
  | [] => []
  | placement :: rest =>
    (placement.emission settings table).outputLines written ::
      outputShares settings table ((placement.emission settings table).sectionAfter written) rest

def listedFor (settings : Settings) (table : SymbolTable) (placements : List Placement) :
    List ListingEntry :=
  placements.flatMap fun placement => (placement.emission settings table).listed placement

section
variable {settings : Settings} {table : SymbolTable} {placement : Placement}

theorem Placement.emission_of_ok {emission : Emission}
    (emits : Emission.ofPlacement settings table placement = .ok emission) :
    placement.emission settings table = emission := by
  simp only [Placement.emission, emits]

theorem Placement.emission_of_error {failure : Failure}
    (failed : Emission.ofPlacement settings table placement = .error failure) :
    placement.emission settings table = .nothing := by
  simp only [Placement.emission, failed]

theorem length_outputShares (settings : Settings) (table : SymbolTable) (written : Option Section)
    (placements : List Placement) :
    (outputShares settings table written placements).length = placements.length := by
  induction placements generalizing written with
  | nil => rfl
  | cons placement rest ih => rw [outputShares, List.length_cons, ih, List.length_cons]

end

namespace SecondPass

variable {settings : Settings} {table : SymbolTable}

theorem observe_written (pass : SecondPass) (placement : Placement) : ∃ journal : Journal,
    (observe settings table pass placement).1 =
      ⟨journal, pass.output ++ (placement.emission settings table).outputLines pass.written,
        pass.listing ++ (placement.emission settings table).listed placement,
        (placement.emission settings table).sectionAfter pass.written⟩ := by
  unfold observe
  cases emits : Emission.ofPlacement settings table placement with
  | ok emission =>
    obtain ⟨journal, written, -⟩ := write_eq pass placement emission
    rw [Placement.emission_of_ok emits]
    exact ⟨journal, written⟩
  | error failure =>
    rw [Placement.emission_of_error emits]
    simp only [Emission.outputLines, Emission.listed, Emission.sectionAfter, List.append_nil]
    cases failure with
    | problem found => exact ⟨(pass.journal.add found).1, rfl⟩
    | _ => exact ⟨pass.journal, rfl⟩

theorem observeAll_written {placements : List Placement} {pass second : SecondPass}
    {stop : Option Failure} (observed : observeAll settings table pass placements = (second, stop)) :
    ∃ front rest, placements = front ++ rest ∧
      second.output = pass.output ++ (outputShares settings table pass.written front).flatten ∧
      second.listing = pass.listing ++ listedFor settings table front ∧
      (stop = none → rest = []) := by
  induction placements generalizing pass with
  | nil =>
    cases observed
    exact ⟨[], [], rfl, by simp [outputShares], by simp [listedFor], fun _ => rfl⟩
  | cons placement rest ih =>
    obtain ⟨journal, after⟩ := @observe_written settings table pass placement
    unfold observeAll at observed
    split at observed
    · next reached reason step =>
      cases observed
      rw [step] at after
      dsimp only at after
      subst after
      exact ⟨[placement], rest, rfl, by simp [outputShares], by simp [listedFor], nofun⟩
    · next reached step =>
      rw [step] at after
      dsimp only at after
      subst after
      obtain ⟨front, others, rfl, output, listing, whole⟩ := ih observed
      refine ⟨placement :: front, others, rfl, ?_, ?_, whole⟩
      · rw [output, outputShares, List.flatten_cons, List.append_assoc]
      · rw [listing, listedFor, listedFor, List.flatMap_cons, List.append_assoc]

end SecondPass

namespace Run

variable {settings : Settings} {file : Text} {lines : List Text} {placements : List Placement}
  {finish : Nat} {first : FirstPass}

/-- A run that comes to the second pass has written the shares of the lines up to the one at which the
limit is reached. -/
theorem Collects.shares (collects : Collects settings file lines placements finish first) :
    let run := Run.ofLines settings file lines
    ∃ front rest, placements = front ++ rest ∧
      run.output = (outputShares settings run.symbols none front).flatten ∧
      run.listing = listedFor settings run.symbols front ∧
      (fatalCount (Placement.diagnostics settings placements) < settings.maxErrors → rest = []) := by
  generalize emitted : SecondPass.observeAll settings first.symbols.freeze
    (first.handOver file finish) placements = result
  obtain ⟨second, stop⟩ := result
  have recorded := collects.recorded emitted
  obtain ⟨front, rest, whole, output, listing, ended⟩ := SecondPass.observeAll_written emitted
  -- whatever comes of the pass, the run has its table, its output and its listing
  have left : (Run.ofLines settings file lines).symbols = first.symbols.freeze ∧
      (Run.ofLines settings file lines).output = second.output ∧
      (Run.ofLines settings file lines).listing = second.listing := by
    have observed := emitted
    unfold FirstPass.handOver at observed
    rw [collects.ofLines_eq]
    unfold emit
    simp only [initial, observed]
    cases stop with
    | some failure => exact ⟨rfl, rfl, rfl⟩
    | none =>
      dsimp only
      split <;> exact ⟨rfl, rfl, rfl⟩
  dsimp only
  rw [left.1, left.2.1, left.2.2]
  exact ⟨front, rest, whole, output, listing, fun few => ended (recorded.goesOn.mpr few)⟩

end Run

structure Placement.Sound (placement : Placement) : Prop where
  accepted : ∀ line found, placement.entry = .rejected line found → found.isFatal = false
  addressed : ∀ symbol, placement.symbol? = some symbol → symbol.address ≤ Machine.maxAddress

structure Placement.Writable (settings : Settings) (placements : List Placement) : Prop where
  sound : ∀ placement ∈ placements, placement.Sound
  written : ∀ placement ∈ placements, ∃ emission,
    Emission.ofPlacement settings (Placement.table placements) placement = .ok emission

theorem Placement.Sound.harmless {placement : Placement} (sound : placement.Sound)
    (before : List Placement) : fatalCount (placement.toldOnCollecting before) = 0 := by
  rw [fatalCount_eq_zero_iff]
  unfold toldOnCollecting
  split
  · next line found entry =>
    have harmless := sound.accepted line found entry
    rw [List.forall_mem_singleton]
    simpa [Problem.isFatal, Diagnostic.severity] using harmless
  · simp [Diagnostic.severity]
  · next line entry =>
    split
    · next name label =>
      have fits : placement.address ≤ Machine.maxAddress :=
        sound.addressed ⟨name, placement.address, some (line.location 0)⟩
          (by simp only [symbol?, entry, label])
      rw [if_pos fits]
      split <;> simp [Diagnostic.severity]
    · simp
  · simp
  · simp

theorem Placement.collecting_harmless {placements : List Placement}
    (sound : ∀ placement ∈ placements, placement.Sound) (before : List Placement) :
    fatalCount (collectingDiagnostics before placements) = 0 := by
  induction placements generalizing before with
  | nil => rfl
  | cons placement rest ih =>
    rw [List.forall_mem_cons] at sound
    rw [collectingDiagnostics, fatalCount_append, sound.1.harmless, ih sound.2]

theorem Emission.severity_of_told {settings : Settings} {table : SymbolTable} {file raw : Text}
    {inside : Option Section} {placement : Placement} {emission : Emission}
    (placed : Placed file placement.number inside raw placement.inside placement.entry)
    (sound : placement.Sound)
    (emits : Emission.ofPlacement settings table placement = .ok emission) :
    ∀ diagnostic ∈ emission.told, diagnostic.severity = .error := by
  have same : placement.toldOnEmitting settings table = emission.told := by
    rw [← toldBy_ofPlacement placed sound.accepted, emits]
    rfl
  intro diagnostic member
  rcases told_of_ofPlacement emits with silent | ⟨allowed, found, alone, missing⟩
  · rw [silent] at member
    cases member
  · rw [← same] at member alone
    obtain ⟨line, other, -, referred, only⟩ := Placement.referred_of_toldOnEmitting member
    rw [only, List.mem_singleton] at member
    rw [only, List.singleton_inj] at alone
    subst member
    rcases referred.told settings with ⟨-, severity⟩ | ⟨category, -⟩
    · rw [severity, if_pos allowed]
    · rw [alone, Diagnostic.category?, missing] at category
      cases category

namespace Run

variable {settings : Settings} {file : Text} {lines : List Text} {placements : List Placement}
  {finish : Cursor}

theorem converted_of_laid (laid : Laid file settings.start lines placements finish)
    (fault : Numeral.Fault) :
    (Run.ofLines settings file lines).outcome ≠ .error (.numeral fault) := by
  have layout : Layout.ofLines settings.base file lines = ⟨placements, .ok finish.address⟩ :=
    (@Laid.layFrom_eq_iff _ _ settings.start _ _).mpr ⟨finish, rfl, laid⟩
  have went := course settings file lines
  generalize Run.ofLines settings file lines = run at went
  cases went with
  | interrupted collected unplaced =>
    rw [layout] at unplaced
    cases unplaced
  | halted collects emitted =>
    obtain ⟨found, rfl⟩ := collects.problem_of_observeAll emitted
    simp
  | _ => simp

theorem assembled_of_writable (laid : Laid file settings.start lines placements finish)
    (writable : Placement.Writable settings placements) :
    (Run.ofLines settings file lines).outcome = .ok () ∧
      Assembled settings file lines (Run.ofLines settings file lines) placements finish := by
  have layout : Layout.ofLines settings.base file lines = ⟨placements, .ok finish.address⟩ :=
    (@Laid.layFrom_eq_iff _ _ settings.start _ _).mpr ⟨finish, rfl, laid⟩
  have told := tells (converted_of_laid laid)
  rw [congrArg Layout.placements layout] at told
  have returned : (Run.ofLines settings file lines).outcome = .ok () := by
    rw [told.returns, Placement.diagnostics, if_pos (Placement.collecting_harmless writable.sound []),
      fatalCount_append, Placement.collecting_harmless writable.sound [], Nat.zero_add,
      fatalCount_eq_zero_iff]
    intro diagnostic member
    obtain ⟨placement, inside, own⟩ := List.mem_flatMap.mp member
    obtain ⟨before, raw, placed⟩ := laid.placed_of_mem placement inside
    obtain ⟨emission, emits⟩ := writable.written placement inside
    have sound := writable.sound placement inside
    rw [← Emission.toldBy_ofPlacement placed sound.accepted, emits] at own
    rw [Emission.severity_of_told placed sound emits diagnostic own]
    simp
  obtain ⟨others, other, assembled⟩ := assembled_of_outcome returned
  have same : placements = others :=
    (congrArg Layout.placements layout).symm.trans assembled.placements_eq
  subst same
  have ending : finish = other := by
    rw [laid.finish_eq, assembled.laid.finish_eq]
  subst ending
  exact ⟨returned, assembled⟩

section
variable {run : Run}

theorem Assembled.table_eq (assembled : Assembled settings file lines run placements finish) :
    run.symbols = Placement.table placements := assembled.symbols

theorem Assembled.writable (assembled : Assembled settings file lines run placements finish) :
    Placement.Writable settings placements where
  sound placement member :=
    ⟨assembled.accepted placement member, assembled.addresses placement member⟩
  written placement member := by
    obtain ⟨front, rest, whole⟩ := List.mem_iff_append.mp member
    have emitted := assembled.emitted
    rw [whole, assembled.table_eq] at emitted
    obtain ⟨emission, -, -, -, -, -, emits, -⟩ := emitted.split
    rw [whole]
    exact ⟨emission, whole ▸ emits⟩

end

theorem reported_sublist (settings : Settings) (file : Text) (lines : List Text) :
    let placements := (Layout.ofLines settings.base file lines).placements
    (Run.ofLines settings file lines).report.diagnostics.Sublist
      (Placement.collectingDiagnostics [] placements ++
        Placement.emittingDiagnostics settings placements) := by
  intro placements
  have collecting {first : FirstPass} {stop : Option Problem}
      (collected : (FirstPass.start settings file).observeAll placements = (first, stop)) :
      first.journal.report.diagnostics.Sublist
        (Placement.collectingDiagnostics [] placements ++
          Placement.emittingDiagnostics settings placements) := by
    rw [(FirstPass.start_recorded collected).diagnostics]
    exact (upToFatal_begins _ _).sublist.trans (List.sublist_append_left _ _)
  have emitting {finish : Nat} {all : List Placement} {first : FirstPass} {second : SecondPass}
      {stop : Option Failure} (collects : Collects settings file lines all finish first)
      (emitted : SecondPass.observeAll settings first.symbols.freeze (first.handOver file finish)
        all = (second, stop)) :
      second.journal.report.diagnostics.Sublist
        (Placement.collectingDiagnostics [] placements ++
          Placement.emittingDiagnostics settings placements) := by
    have same : placements = all := congrArg Layout.placements collects.layout
    rw [same, (collects.recorded emitted).diagnostics]
    exact (upToFatal_begins _ _).sublist.trans (Placement.diagnostics_sublist settings all)
  have went := course settings file lines
  generalize Run.ofLines settings file lines = run at went
  cases went with
  | stopped collected | interrupted collected | rejected collected => exact collecting collected
  | halted collects emitted | failed collects emitted => exact emitting collects emitted
  | returned collects emits => exact emitting collects emits.ended

theorem shares_of_outcome (returned : (Run.ofLines settings file lines).outcome = .ok ()) :
    let run := Run.ofLines settings file lines
    let placements := (Layout.ofLines settings.base file lines).placements
    run.output = (outputShares settings run.symbols none placements).flatten ∧
      run.listing = listedFor settings run.symbols placements := by
  intro run placements
  obtain ⟨all, finish, first, second, collects, emits⟩ := completes_of_outcome returned
  have same : placements = all := congrArg Layout.placements collects.layout
  obtain ⟨front, rest, whole, output, listing, ended⟩ := collects.shares
  have none_fatal := (collects.recorded emits.ended).goesOn.mp rfl
  rw [ended none_fatal, List.append_nil] at whole
  rw [same, whole]
  exact ⟨output, listing⟩

end Run

end TwoPass
