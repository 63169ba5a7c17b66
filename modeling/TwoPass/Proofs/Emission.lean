import TwoPass.Proofs.Collection

/-! The second pass: writing what each placement gives rise to.

`Emitted` relates placements to the lines written for them and to the entries listed. A pass that
ends without a fatal problem has written exactly that, since a line that cannot be resolved is a
fatal problem unless it is passed through with an error. -/

set_option autoImplicit false

namespace TwoPass

theorem SymbolTable.lookup_eq_ok_iff {table : SymbolTable} {name : Text}
    {location : Option Location} {sourceLine : Option Text} {symbol : Symbol} :
    table.lookup name location sourceLine = .ok symbol ↔ table.find? name = some symbol := by
  unfold lookup
  cases table.find? name <;> simp

theorem SymbolTable.isFatal_of_lookup {table : SymbolTable} {name : Text}
    {location : Option Location} {sourceLine : Option Text} {found : Problem}
    (failed : table.lookup name location sourceLine = .error found) : found.isFatal = true := by
  unfold lookup at failed
  split at failed
  · cases failed
  · cases failed
    rfl

namespace Statement

variable {statement : Statement} {table : SymbolTable} {place : Int} {found : Problem}

theorem isFatal_of_addressOf {operand : Operand} {name : Text}
    (failed : statement.addressOf table operand name = .error (.problem found)) :
    found.isFatal = true := by
  unfold addressOf at failed
  split at failed
  · cases failed
  · next missing =>
    cases failed
    exact SymbolTable.isFatal_of_lookup missing

theorem isFatal_of_resolveOperand {slot : Slot} {operand : Operand}
    (failed : statement.resolveOperand table place slot operand = .error (.problem found)) :
    found.isFatal = true := by
  unfold resolveOperand at failed
  split at failed
  · rcases Except.bind_eq_error_iff.mp failed with missing | ⟨address, -, other⟩
    · exact isFatal_of_addressOf missing
    · cases other
  · rcases Except.bind_eq_error_iff.mp failed with missing | ⟨address, -, distant⟩
    · exact isFatal_of_addressOf missing
    · dsimp only at distant
      split at distant
      · cases distant
      · cases distant
        rfl
  · cases failed
  · cases failed
  · cases failed

theorem isFatal_of_resolveOperands {pairs : List (Slot × Operand)}
    (failed : statement.resolveOperands table place pairs = .error (.problem found)) :
    found.isFatal = true := by
  induction pairs with
  | nil => cases failed
  | cons pair rest ih =>
    rcases Except.bind_eq_error_iff.mp failed with first | ⟨operand, -, others⟩
    · exact isFatal_of_resolveOperand first
    · rcases Except.bind_eq_error_iff.mp others with later | ⟨operands, -, impossible⟩
      · exact ih later
      · cases impossible

theorem isFatal_of_resolve {shape : Shape}
    (failed : statement.resolve table shape place = .error (.problem found)) :
    found.isFatal = true := by
  unfold resolve at failed
  split at failed
  · rcases Except.bind_eq_error_iff.mp failed with unresolved | ⟨operands, -, impossible⟩
    · exact isFatal_of_resolveOperands unresolved
    · cases impossible
  · cases failed

end Statement

theorem Line.isFatal_of_resolvePieces {line : Line} {table : SymbolTable} {pieces : List DataPiece}
    {found : Problem} (failed : line.resolvePieces table pieces = .error found) :
    found.isFatal = true := by
  induction pieces with
  | nil => cases failed
  | cons piece rest ih =>
    rcases Except.bind_eq_error_iff.mp failed with first | ⟨written, -, others⟩
    · cases piece with
      | plain c => cases first
      | reference offset name =>
        rcases Except.bind_eq_error_iff.mp first with missing | ⟨symbol, -, impossible⟩
        · exact SymbolTable.isFatal_of_lookup missing
        · cases impossible
    · rcases Except.bind_eq_error_iff.mp others with later | ⟨more, -, impossible⟩
      · exact ih later
      · cases impossible

namespace Emission

variable {settings : Settings} {table : SymbolTable} {found : Problem}

theorem isFatal_of_unresolved {source : Text} {reason : Problem} (fatal : reason.isFatal = true)
    (failed : unresolved settings source reason = .error (.problem found)) :
    found.isFatal = true := by
  unfold unresolved at failed
  split at failed
  · cases failed
  · cases failed
    exact fatal

theorem expand_ne_problem {statement : Statement} :
    statement.expand ≠ .error (.problem found) := by
  have register (operands : List Operand) (position : Nat) :
      Expansion.registerAt operands position ≠ .error (.problem found) := by
    unfold Expansion.registerAt
    split
    · simp
    · split <;> simp
  have number (operands : List Operand) (position : Nat) :
      Expansion.numberAt operands position ≠ .error (.problem found) := by
    unfold Expansion.numberAt
    split
    · simp
    · split <;> simp
  intro failed
  unfold Statement.expand at failed
  split at failed
  · cases failed
  next pseudo named =>
  rcases Except.bind_eq_error_iff.mp failed with failed | ⟨texts, -, impossible⟩
  · cases pseudo <;>
      simp [Expansion.ofPseudo, Except.bind_eq_error_iff, register, number, pure, Except.pure]
        at failed
  · cases impossible

theorem isFatal_of_ofPlacement {placement : Placement}
    (failed : ofPlacement settings table placement = .error (.problem found)) :
    found.isFatal = true := by
  unfold ofPlacement at failed
  split at failed
  · split at failed
    · next fatal =>
      cases failed
      exact fatal
    · cases failed
  · cases failed
  · next line _ =>
    unfold ofItem at failed
    split at failed
    · cases failed
    · next reason unresolved =>
      exact isFatal_of_unresolved (Line.isFatal_of_resolvePieces unresolved) failed
  · next statement instruction shape _ =>
    unfold ofCode at failed
    split at failed
    · next reason unresolved =>
      exact isFatal_of_unresolved (Statement.isFatal_of_resolve unresolved) failed
    · next other _ =>
      cases failed
      exact absurd rfl (other found)
    · split at failed
      · rcases Except.bind_eq_error_iff.mp failed with expanded | ⟨texts, -, impossible⟩
        · exact absurd expanded expand_ne_problem
        · cases impossible
      · cases failed
  · split at failed <;> cases failed

theorem ofPlacement_rejected {placement : Placement} {line : Option Line} {emission : Emission}
    (entry : placement.entry = .rejected line found)
    (emits : ofPlacement settings table placement = .ok emission) :
    found.isFatal = false ∧ emission = .nothing := by
  rw [ofPlacement, entry] at emits
  dsimp only at emits
  split at emits
  · cases emits
  · next harmless =>
    cases emits
    exact ⟨by simpa using harmless, rfl⟩

def outputLines (written : Option Section) : Emission → List OutputLine
  | .nothing => []
  | .directive target => if written = some target then [] else [.directive target]
  | .label name => [.label name]
  | .lines _ texts => texts.map .indented
  | .verbatim source _ => [.indented source]

def sectionAfter (written : Option Section) : Emission → Option Section
  | .directive target => some target
  | _ => written

def listed (placement : Placement) : Emission → List ListingEntry
  | .lines source texts => [⟨placement.address, placement.number, source, texts⟩]
  | .verbatim source _ => [⟨placement.address, placement.number, source, [source]⟩]
  | _ => []

def told : Emission → List Diagnostic
  | .verbatim _ found => [.problem found]
  | _ => []

theorem downgraded_category {problem : Problem} (missing : problem.fault.category = .undefinedLabel) :
    problem.downgraded.fault.category = .undefinedLabel := by
  unfold Problem.downgraded
  split
  · rfl
  · exact missing

theorem unresolved_eq_ok {source : Text} {reason : Problem} {emission : Emission}
    (passed : unresolved settings source reason = .ok emission) : settings.allowUndefined = true ∧
      ∃ found, emission = .verbatim source found ∧ found.fault.category = .undefinedLabel := by
  unfold unresolved at passed
  split at passed
  · next allowed =>
    rw [Bool.and_eq_true, decide_eq_true_eq] at allowed
    cases passed
    exact ⟨allowed.1, _, rfl, downgraded_category allowed.2⟩
  · cases passed

inductive OfContent (settings : Settings) (source : Text) : Emission → Prop where
  | lines (texts : List Text) : OfContent settings source (.lines source texts)
  | verbatim {found : Problem} (allowed : settings.allowUndefined = true)
    (missing : found.fault.category = .undefinedLabel) :
    OfContent settings source (.verbatim source found)

theorem ofContent_of_unresolved {source : Text} {reason : Problem} {emission : Emission}
    (passed : unresolved settings source reason = .ok emission) :
    OfContent settings source emission := by
  obtain ⟨allowed, found, rfl, missing⟩ := unresolved_eq_ok passed
  exact .verbatim allowed missing

theorem ofContent_of_ofItem {line : Line} {emission : Emission}
    (emits : ofItem settings table line = .ok emission) :
    OfContent settings line.text emission := by
  unfold ofItem at emits
  split at emits
  · cases emits
    exact .lines _
  · exact ofContent_of_unresolved emits

theorem ofContent_of_ofCode {place : Nat} {statement : Statement} {instruction : Instruction}
    {shape : Shape} {emission : Emission}
    (emits : ofCode settings table place statement instruction shape = .ok emission) :
    OfContent settings statement.text emission := by
  unfold ofCode at emits
  split at emits
  · exact ofContent_of_unresolved emits
  · cases emits
  · split at emits
    · obtain ⟨texts, -, result⟩ := Except.bind_eq_ok_iff.mp emits
      cases result
      exact .lines texts
    · cases emits
      exact .lines _

/-- Only an undefined label comes with a diagnostic, and only where that is allowed. -/
theorem told_of_ofPlacement {placement : Placement} {emission : Emission}
    (emits : ofPlacement settings table placement = .ok emission) : emission.told = [] ∨
      settings.allowUndefined = true ∧
        ∃ found, emission.told = [.problem found] ∧ found.fault.category = .undefinedLabel := by
  have through {source : Text} (content : OfContent settings source emission) : emission.told = [] ∨
      settings.allowUndefined = true ∧
        ∃ found, emission.told = [.problem found] ∧ found.fault.category = .undefinedLabel := by
    cases content with
    | lines texts => exact .inl rfl
    | verbatim allowed missing => exact .inr ⟨allowed, _, rfl, missing⟩
  unfold ofPlacement at emits
  split at emits
  · split at emits
    · cases emits
    · cases emits
      exact .inl rfl
  · cases emits
    exact .inl rfl
  · exact through (ofContent_of_ofItem emits)
  · exact through (ofContent_of_ofCode emits)
  · left
    split at emits
    · cases emits
      rfl
    · cases emits
      split <;> rfl
    · cases emits
      rfl

theorem told_of_strict (strict : settings.allowUndefined = false) {placement : Placement}
    {emission : Emission} (emits : ofPlacement settings table placement = .ok emission) :
    emission.told = [] := by
  rcases told_of_ofPlacement emits with silent | ⟨allowed, -⟩
  · exact silent
  · cases strict.symm.trans allowed

end Emission

/-- Placements together with what is written and listed for them, where `written` is the section of
the last directive in front. -/
inductive Emitted (settings : Settings) (table : SymbolTable) :
    (written : Option Section) → List Placement → List OutputLine → List ListingEntry → Prop
  | nil {written : Option Section} : Emitted settings table written [] [] []
  | cons {written : Option Section} {placement : Placement} {placements : List Placement}
    {emission : Emission} {output : List OutputLine} {listing : List ListingEntry}
    (emits : Emission.ofPlacement settings table placement = .ok emission)
    (rest : Emitted settings table (emission.sectionAfter written) placements output listing) :
    Emitted settings table written (placement :: placements)
      (emission.outputLines written ++ output) (emission.listed placement ++ listing)

namespace SecondPass

variable {settings : Settings} {table : SymbolTable}

/-- The pass after an emission, but for its journal. Only what comes with a diagnostic can stop it. -/
theorem write_eq (pass : SecondPass) (placement : Placement) (emission : Emission) :
    ∃ journal : Journal,
      (pass.write placement emission).1 = ⟨journal, pass.output ++ emission.outputLines pass.written,
        pass.listing ++ emission.listed placement, emission.sectionAfter pass.written⟩ ∧
      Report.Grown pass.journal.report emission.told journal.report ∧
      (emission.told = [] → (pass.write placement emission).2 = none) := by
  cases emission with
  | directive target =>
    refine ⟨pass.journal, ?_, .refl _, ?_⟩
    · by_cases same : pass.written = some target
      · obtain ⟨journal, output, listing, written⟩ := pass
        cases same
        simp [write, Emission.outputLines, Emission.listed, Emission.sectionAfter]
      · simp [write, same, Emission.outputLines, Emission.listed, Emission.sectionAfter]
    · intro _
      rw [write]
      split <;> rfl
  | verbatim source found =>
    exact ⟨(pass.journal.add found).1, rfl, .add pass.journal.report found,
      fun silent => by cases silent⟩
  | _ =>
    refine ⟨pass.journal, ?_, .refl _, fun _ => rfl⟩
    simp [write, writeLines, Emission.outputLines, Emission.listed, Emission.sectionAfter]

structure Completed (settings : Settings) (table : SymbolTable) (pass : SecondPass)
    (placements : List Placement) (second : SecondPass) (output : List OutputLine)
    (listing : List ListingEntry) : Prop where
  grown : ∃ more, Report.Grown pass.journal.report more second.journal.report
  emitted : Emitted settings table pass.written placements output listing
  output : second.output = pass.output ++ output
  listing : second.listing = pass.listing ++ listing
  reported : ∀ placement ∈ placements, ∀ emission,
    Emission.ofPlacement settings table placement = .ok emission →
      emission.told ⊆ second.journal.report.diagnostics

theorem observeAll_completed {placements : List Placement} {pass second : SecondPass}
    (ended : observeAll settings table pass placements = (second, none))
    (clean : second.journal.report.hasFatal = false) :
    ∃ output listing, Completed settings table pass placements second output listing := by
  induction placements generalizing pass with
  | nil =>
    cases ended
    exact ⟨[], [], ⟨[], .refl _⟩, .nil, by simp, by simp, by simp⟩
  | cons placement rest ih =>
    unfold observeAll at ended
    split at ended
    · cases ended
    next after observed =>
    obtain ⟨output, listing, tail⟩ := ih ended
    -- what one placement adds comes in front of what the others add
    obtain ⟨back, gone⟩ := tail.grown
    have cleanAfter := (gone.clean clean).1
    unfold observe at observed
    split at observed
    · next emission emits =>
      obtain ⟨journal, written, told, -⟩ := write_eq pass placement emission
      rw [observed] at written
      dsimp only at written
      subst written
      refine ⟨emission.outputLines pass.written ++ output, emission.listed placement ++ listing,
        ?_, .cons emits tail.emitted, ?_, ?_, ?_⟩
      · exact ⟨emission.told ++ back, told.trans gone⟩
      · rw [tail.output, List.append_assoc]
      · rw [tail.listing, List.append_assoc]
      · rw [List.forall_mem_cons]
        refine ⟨fun other same => ?_, tail.reported⟩
        cases emits.symm.trans same
        rw [(told.trans gone).diagnostics]
        exact List.subset_append_of_subset_right _ (List.subset_append_left _ _)
    · next found failed =>
      -- the problem would have been recorded, and it is fatal
      have same : (pass.reject found).1 = after := congrArg Prod.fst observed
      have recorded : Report.Grown pass.journal.report [.problem found] after.journal.report :=
        same ▸ .add pass.journal.report found
      have harmless := (recorded.clean cleanAfter).2 _ List.mem_cons_self
      exact absurd (of_decide_eq_true (Emission.isFatal_of_ofPlacement failed)) harmless
    · cases observed

theorem observeAll_of_emitted {placements : List Placement} {pass : SecondPass}
    {output : List OutputLine} {listing : List ListingEntry}
    (emitted : Emitted settings table pass.written placements output listing)
    (silent : ∀ placement ∈ placements, ∀ emission,
      Emission.ofPlacement settings table placement = .ok emission → emission.told = []) :
    ∃ second, observeAll settings table pass placements = (second, none) ∧
      second.output = pass.output ++ output ∧
      Report.Grown pass.journal.report [] second.journal.report := by
  induction placements generalizing pass output listing with
  | nil =>
    cases emitted
    exact ⟨pass, rfl, by simp, .refl _⟩
  | cons placement rest ih =>
    cases emitted with
    | @cons _ _ _ emission output listing emits tail =>
      rw [List.forall_mem_cons] at silent
      have quiet := silent.1 emission emits
      obtain ⟨journal, written, told, unstopped⟩ := write_eq pass placement emission
      have observed : observe settings table pass placement =
          (⟨journal, pass.output ++ emission.outputLines pass.written,
            pass.listing ++ emission.listed placement, emission.sectionAfter pass.written⟩, none) := by
        simp only [observe, emits]
        exact Prod.ext written (unstopped quiet)
      obtain ⟨second, ended, all, grown⟩ := @ih ⟨journal, _, _, _⟩ output listing tail silent.2
      refine ⟨second, ?_, ?_, ?_⟩
      · rw [observeAll, observed]
        exact ended
      · rw [all, List.append_assoc]
      · rw [quiet] at told
        exact told.trans grown

end SecondPass

theorem Emitted.split {settings : Settings} {table : SymbolTable} {written : Option Section}
    {first : List Placement} {placement : Placement} {last : List Placement}
    {output : List OutputLine} {listing : List ListingEntry}
    (emitted : Emitted settings table written (first ++ placement :: last) output listing) :
    ∃ emission before listedBefore between after listedAfter,
      Emission.ofPlacement settings table placement = .ok emission ∧
      Emitted settings table written first before listedBefore ∧
      output = before ++ emission.outputLines between ++ after ∧
      listing = listedBefore ++ emission.listed placement ++ listedAfter := by
  induction first generalizing written output listing with
  | nil =>
    cases emitted with
    | cons emits rest => exact ⟨_, [], [], _, _, _, emits, .nil, rfl, rfl⟩
  | cons head first ih =>
    cases emitted with
    | cons emits rest =>
      obtain ⟨emission, before, listedBefore, between, after, listedAfter, own, front, rfl, rfl⟩ :=
        ih rest
      refine ⟨emission, _, _, between, after, listedAfter, own, .cons emits front, ?_, ?_⟩ <;> simp

end TwoPass
