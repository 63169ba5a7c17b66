import TwoPass.Proofs.Share

/-! Lines that are reported and otherwise ignored.

Content in front of every directive and a pseudo-instruction with malformed operands take no bytes, bind
nothing and write nothing. A run over such a line and a run over an empty line in its place go through
the same states, but for the one diagnostic that the line gets. -/

set_option autoImplicit false

namespace TwoPass

/-! ### One diagnostic more -/

/-- The reports agree, but for one diagnostic that the second lacks. It is not a fatal one. -/
structure Report.Without (told : Diagnostic) (report other : Report) : Prop where
  limit : report.limit = other.limit
  fatal : report.fatal = other.fatal
  diagnostics : ∃ front back, report.diagnostics = front ++ told :: back ∧
    other.diagnostics = front ++ back

namespace Report.Without

variable {told : Diagnostic} {report other after otherAfter : Report} {more : List Diagnostic}

theorem grow (without : Without told report other) (grown : Grown report more after)
    (otherGrown : Grown other more otherAfter) : Without told after otherAfter := by
  obtain ⟨front, back, own, others⟩ := without.diagnostics
  refine ⟨?_, ?_, front, back ++ more, ?_, ?_⟩
  · rw [grown.limit, otherGrown.limit, without.limit]
  · rw [grown.fatal, otherGrown.fatal, without.fatal]
  · rw [grown.diagnostics, own, List.append_assoc, List.cons_append]
  · rw [otherGrown.diagnostics, others, List.append_assoc]

theorem warn (without : Without told report other) (notice : Warning) (location : Option Location) :
    Without told (report.warn notice location) (other.warn notice location) :=
  without.grow (.warn report notice location) (.warn other notice location)

-- the limit is compared with the fatal problems, and these are the same
theorem add (without : Without told report other) (found : Problem) :
    Without told (report.add found).1 (other.add found).1 ∧
      (report.add found).2 = (other.add found).2 := by
  refine ⟨without.grow (.add report found) (.add other found), ?_⟩
  rw [add_snd, add_snd, without.limit, without.fatal]

theorem hasFatal_eq (without : Without told report other) : report.hasFatal = other.hasFatal := by
  rw [Report.hasFatal, Report.hasFatal, without.fatal]

end Report.Without

/-! ### The first pass -/

namespace FirstPass

structure Without (told : Diagnostic) (pass other : FirstPass) : Prop where
  symbols : pass.symbols = other.symbols
  report : Report.Without told pass.journal.report other.journal.report

variable {told : Diagnostic} {pass other : FirstPass}

theorem Without.reject (without : Without told pass other) (found : Problem) :
    Without told (pass.reject found).1 (other.reject found).1 ∧
      (pass.reject found).2 = (other.reject found).2 := by
  obtain ⟨report, stop⟩ := without.report.add found
  exact ⟨⟨without.symbols, report⟩, stop⟩

theorem Without.defineLabel (without : Without told pass other) (line : Line) (name : Text) (address : Nat) :
    Without told (pass.defineLabel line name address).1 (other.defineLabel line name address).1 ∧
      (pass.defineLabel line name address).2 = (other.defineLabel line name address).2 := by
  unfold FirstPass.defineLabel
  dsimp only
  rw [without.symbols]
  split
  · next found symbols _ =>
    have same : Without told { pass with symbols } { other with symbols } := ⟨rfl, without.report⟩
    exact same.reject found
  · refine ⟨⟨rfl, ?_⟩, rfl⟩
    split
    · exact without.report.warn _ _
    · exact without.report

theorem Without.observe (without : Without told pass other) (placement : Placement) :
    Without told (pass.observe placement).1 (other.observe placement).1 ∧
      (pass.observe placement).2 = (other.observe placement).2 := by
  unfold FirstPass.observe
  split
  · exact without.reject _
  · exact ⟨⟨without.symbols, without.report.warn _ _⟩, rfl⟩
  · split
    · exact without.defineLabel _ _ _
    · exact ⟨without, rfl⟩
  · exact ⟨without, rfl⟩
  · exact ⟨without, rfl⟩

theorem Without.observeAll (without : Without told pass other) (placements : List Placement) :
    Without told (pass.observeAll placements).1 (other.observeAll placements).1 ∧
      (pass.observeAll placements).2 = (other.observeAll placements).2 := by
  induction placements generalizing pass other with
  | nil => exact ⟨without, rfl⟩
  | cons placement rest ih =>
    have step := without.observe placement
    rw [FirstPass.observeAll, FirstPass.observeAll]
    generalize pass.observe placement = after, other.observe placement = otherAfter at step
    obtain ⟨after, stop⟩ := after
    obtain ⟨otherAfter, otherStop⟩ := otherAfter
    obtain ⟨agree, rfl⟩ : Without told after otherAfter ∧ stop = otherStop := step
    cases stop with
    | some found => exact ⟨agree, rfl⟩
    | none => exact ih agree

theorem observeAll_append (pass : FirstPass) (first rest : List Placement) :
    pass.observeAll (first ++ rest) = match pass.observeAll first with
      | (after, some stop) => (after, some stop)
      | (after, none) => after.observeAll rest := by
  induction first generalizing pass with
  | nil => rfl
  | cons placement first ih =>
    rw [List.cons_append, observeAll, observeAll]
    split
    · rfl
    · exact ih _

end FirstPass

/-! ### The second pass -/

namespace SecondPass

structure Without (told : Diagnostic) (pass other : SecondPass) : Prop where
  output : pass.output = other.output
  listing : pass.listing = other.listing
  written : pass.written = other.written
  report : Report.Without told pass.journal.report other.journal.report

variable {told : Diagnostic} {pass other : SecondPass} {settings : Settings} {table : SymbolTable}

theorem Without.reject (without : Without told pass other) (found : Problem) :
    Without told (pass.reject found).1 (other.reject found).1 ∧
      (pass.reject found).2 = (other.reject found).2 := by
  obtain ⟨report, stop⟩ := without.report.add found
  exact ⟨⟨without.output, without.listing, without.written, report⟩, congrArg (Option.map Failure.problem) stop⟩

theorem Without.writeLines (without : Without told pass other) (placement : Placement)
    (source : Text) (texts : List Text) :
    Without told (pass.writeLines placement source texts)
      (other.writeLines placement source texts) :=
  ⟨congrArg (· ++ _) without.output, congrArg (· ++ _) without.listing, without.written,
    without.report⟩

theorem Without.write (without : Without told pass other) (placement : Placement) (emission : Emission) :
    Without told (pass.write placement emission).1 (other.write placement emission).1 ∧
      (pass.write placement emission).2 = (other.write placement emission).2 := by
  cases emission with
  | nothing => exact ⟨without, rfl⟩
  | directive target =>
    rw [SecondPass.write, SecondPass.write, without.written]
    split
    · exact ⟨without, rfl⟩
    · exact ⟨⟨congrArg (· ++ _) without.output, without.listing, rfl, without.report⟩, rfl⟩
  | label name =>
    exact ⟨⟨congrArg (· ++ _) without.output, without.listing, without.written, without.report⟩, rfl⟩
  | lines source texts => exact ⟨without.writeLines placement source texts, rfl⟩
  | verbatim source found =>
    obtain ⟨agree, stop⟩ := without.reject found
    exact ⟨agree.writeLines placement source [source], stop⟩

theorem Without.observe (without : Without told pass other) (placement : Placement) :
    Without told (observe settings table pass placement).1 (observe settings table other placement).1 ∧
      (observe settings table pass placement).2 = (observe settings table other placement).2 := by
  unfold SecondPass.observe
  split
  · exact without.write placement _
  · exact without.reject _
  · exact ⟨without, rfl⟩

theorem Without.observeAll (without : Without told pass other) (placements : List Placement) :
    Without told (observeAll settings table pass placements).1
        (observeAll settings table other placements).1 ∧
      (observeAll settings table pass placements).2 =
        (observeAll settings table other placements).2 := by
  induction placements generalizing pass other with
  | nil => exact ⟨without, rfl⟩
  | cons placement rest ih =>
    have step := @Without.observe told pass other settings table without placement
    rw [SecondPass.observeAll, SecondPass.observeAll]
    generalize SecondPass.observe settings table pass placement = after,
      SecondPass.observe settings table other placement = otherAfter at step
    obtain ⟨after, stop⟩ := after
    obtain ⟨otherAfter, otherStop⟩ := otherAfter
    obtain ⟨agree, rfl⟩ : Without told after otherAfter ∧ stop = otherStop := step
    cases stop with
    | some found => exact ⟨agree, rfl⟩
    | none => exact ih agree

theorem observeAll_skip {placement : Placement}
    (inert : Emission.ofPlacement settings table placement = .ok .nothing) (pass : SecondPass)
    (first rest : List Placement) :
    observeAll settings table pass (first ++ placement :: rest) =
      observeAll settings table pass (first ++ rest) := by
  induction first generalizing pass with
  | nil =>
    rw [List.nil_append, List.nil_append, observeAll, SecondPass.observe, inert]
    rfl
  | cons head first ih =>
    rw [List.cons_append, List.cons_append, observeAll, observeAll]
    split
    · rfl
    · exact ih _

end SecondPass

/-! ### Layouts -/

theorem Layout.layFrom_append_of_error {file : Text} {number address : Nat}
    {inside : Option Section} {before : List Text} {failure : Failure}
    (stopped : (layFrom file number inside address before).finish = .error failure)
    (rest : List Text) :
    layFrom file number inside address (before ++ rest) =
      layFrom file number inside address before := by
  induction before generalizing number inside address with
  | nil => cases stopped
  | cons raw before ih =>
    cases placed : Placement.ofRaw file number inside address raw with
    | error reason => simp only [List.cons_append, layFrom, placed]
    | ok placement =>
      simp only [layFrom, placed] at stopped
      simp only [List.cons_append, layFrom, placed]
      exact congrArg (Layout.cons placement) (ih stopped)

theorem Laid.layFrom_append {file : Text} {start cursor : Cursor} {before : List Text}
    {first : List Placement} (laid : Laid file start before first cursor) (rest : List Text) :
    Layout.layFrom file start.number start.inside start.address (before ++ rest) =
      ⟨first ++ (Layout.layFrom file cursor.number cursor.inside cursor.address rest).placements,
        (Layout.layFrom file cursor.number cursor.inside cursor.address rest).finish⟩ := by
  induction laid with
  | nil cursor => rfl
  | @cons cursor finish raw lines placement placements number address placed laid ih =>
    have own := Placement.ofRaw_eq_ok_iff.mpr ⟨number, address, placed⟩
    rw [Placement.after, number] at ih
    rw [List.cons_append, Layout.layFrom, own]
    dsimp only
    rw [ih]
    rfl

/-- A line without bytes that leaves the section: the next line follows as if it were not there, but
for its number. -/
theorem Laid.layFrom_inert {file raw : Text} {start cursor : Cursor} {before : List Text}
    {first : List Placement} {entry : Entry} (laid : Laid file start before first cursor)
    (placed : Placed file cursor.number cursor.inside raw cursor.inside entry)
    (empty : entry.size = 0) (after : List Text) :
    let rest := Layout.layFrom file (cursor.number + 1) cursor.inside cursor.address after
    Layout.layFrom file start.number start.inside start.address (before ++ raw :: after) =
      ⟨first ++ ⟨cursor.number, cursor.inside, cursor.address, entry⟩ :: rest.placements,
        rest.finish⟩ := by
  intro rest
  have own : Placement.ofRaw file cursor.number cursor.inside cursor.address raw =
      .ok ⟨cursor.number, cursor.inside, cursor.address, entry⟩ := Placement.ofRaw_of_placed placed
  have behind : Layout.layFrom file cursor.number cursor.inside cursor.address (raw :: after) =
      rest.cons ⟨cursor.number, cursor.inside, cursor.address, entry⟩ := by
    rw [Layout.layFrom, own]
    dsimp only
    rw [Placement.next, empty]
    rfl
  rw [laid.layFrom_append, behind]
  rfl

/-! ### Lines that are ignored -/

theorem Fault.severity_of_pseudo {fault : Fault} (pseudo : fault.category = .pseudoInstruction) :
    fault.severity = .error := by
  cases fault <;> simp_all [Fault.category, Fault.severity]

/-- A line behind others that is ignored, and the diagnostic that it gets: content in front of every
directive, or a line of code that is a malformed pseudo-instruction. -/
inductive Source.Ignored (file : Text) (before : List Text) (raw : Text) : Diagnostic → Prop
  | stray {line : Line} (read : Line.read raw file (before.length + 1 : Nat) = .ok line)
    (content : line.body = .content) (outside : Source.sectionAfterAll none before = none) :
    Ignored file before raw (.warning (.outsideSection line.text) (some (line.location 0)))
  | pseudo {line : Line} {found : Problem}
    (read : Line.read raw file (before.length + 1 : Nat) = .ok line)
    (content : line.body = .content) (code : Source.sectionAfterAll none before = some .code)
    (failed : Entry.ofCode line = .error (.problem found))
    (pseudo : found.fault.category = .pseudoInstruction) :
    Ignored file before raw (.problem found)

structure Entry.Silenced (told : Diagnostic) (entry : Entry) : Prop where
  size : entry.size = 0
  collects : ∀ (number address : Nat) (inside : Option Section) (pass : FirstPass),
    ∃ journal : Journal, journal.report = pass.journal.report.record told ∧
      pass.observe ⟨number, inside, address, entry⟩ = ({ pass with journal }, none)
  emits : ∀ (settings : Settings) (table : SymbolTable) (number address : Nat)
    (inside : Option Section),
    Emission.ofPlacement settings table ⟨number, inside, address, entry⟩ = .ok .nothing

namespace Source.Ignored

variable {file raw : Text} {before : List Text} {told : Diagnostic}

theorem line?_eq (ignored : Ignored file before raw told) :
    told.line? = some ((before.length + 1 : Nat) : Int) := by
  cases ignored with
  | stray read => exact congrArg some (Line.number_of_read read)
  | pseudo read content code failed =>
    rw [Entry.line?_of_refused content failed, Line.number_of_read read]

theorem placed (ignored : Ignored file before raw told) : ∃ entry : Entry, entry.Silenced told ∧
    Placed file (before.length + 1) (sectionAfterAll none before) raw (sectionAfterAll none before)
      entry := by
  cases ignored with
  | @stray line read content outside =>
    refine ⟨.stray line, ⟨rfl, fun number address inside pass => ?_, fun _ _ _ _ _ => rfl⟩, ?_⟩
    · exact ⟨pass.journal.warn _ (line.location 0), rfl, rfl⟩
    · exact .stray read content outside
  | @pseudo line found read content code failed pseudo =>
    have harmless : found.isFatal = false := by
      simp [Problem.isFatal, Problem.severity, Fault.severity_of_pseudo pseudo]
    refine ⟨.rejected (some line) found, ⟨rfl, fun number address inside pass => ?_, ?_⟩, ?_⟩
    · have added : pass.journal.report.add found =
          (pass.journal.report.record (.problem found), none) := by simp [Report.add, harmless]
      have unstopped : (pass.journal.report.add found).2 = none := congrArg Prod.snd added
      exact ⟨(pass.journal.add found).1, congrArg Prod.fst added, Prod.ext rfl unstopped⟩
    · intro settings table number address inside
      simp [Emission.ofPlacement, harmless]
    · exact .refused read content code failed

end Source.Ignored

theorem Line.read_nil (file : Text) (number : Int) :
    Line.read [] file number = .ok ⟨file, number, [], 0, [], .blank⟩ := rfl

/-! ### Runs -/

namespace Run

def Reaches (settings : Settings) (file : Text) (before : List Text) : Prop :=
  (∃ finish, (Layout.ofLines settings.base file before).finish = .ok finish) ∧
    ((FirstPass.start settings file).observeAll
      (Layout.ofLines settings.base file before).placements).2 = none

structure Without (told : Diagnostic) (run other : Run) : Prop where
  outcome : run.outcome = .ok () ↔ other.outcome = .ok ()
  output : run.output = other.output
  listing : run.listing = other.listing
  symbols : run.symbols = other.symbols
  finish : run.finish = other.finish
  report : Report.Without told run.report other.report

variable {settings : Settings} {file : Text} {lines others : List Text} {told : Diagnostic}

theorem ofLines_congr (same : Layout.ofLines settings.base file lines =
      Layout.ofLines settings.base file others) :
    Run.ofLines settings file lines = Run.ofLines settings file others := by
  rw [ofLines_eq_resume, ofLines_eq_resume]
  unfold resume
  rw [same]

theorem ofLines_of_stopped {first : FirstPass} {found : Problem}
    (collected : (FirstPass.start settings file).observeAll
      (Layout.ofLines settings.base file lines).placements = (first, some found)) :
    Run.ofLines settings file lines =
      ⟨first.symbols, first.journal, [], [], none, settings.base, .error (.problem found)⟩ := by
  unfold FirstPass.start at collected
  rw [ofLines_eq_resume]
  unfold resume
  simp only [collected]
  rfl

theorem Without.emit {placements placementsOther : List Placement} {finish : Nat}
    {first other : FirstPass} (without : FirstPass.Without told first other)
    (skips : ∀ table pass, SecondPass.observeAll settings table pass placements =
      SecondPass.observeAll settings table pass placementsOther) :
    Without told (Run.emit settings (initial settings) file placements finish first)
      (Run.emit settings (initial settings) file placementsOther finish other) := by
  have handed : SecondPass.Without told (first.handOver file finish) (other.handOver file finish) :=
    ⟨rfl, rfl, rfl, without.report⟩
  have passes := @SecondPass.Without.observeAll told _ _ settings other.symbols.freeze
    handed placementsOther
  rw [← skips] at passes
  cases emitted : SecondPass.observeAll settings other.symbols.freeze (first.handOver file finish)
    placements with
  | mk second stop =>
  cases emittedOther : SecondPass.observeAll settings other.symbols.freeze
    (other.handOver file finish) placementsOther with
  | mk secondOther stopOther =>
  rw [emitted, emittedOther] at passes
  obtain ⟨agree, rfl⟩ : SecondPass.Without told second secondOther ∧ stop = stopOther := passes
  unfold FirstPass.handOver at emitted emittedOther
  rw [without.symbols] at emitted
  unfold Run.emit
  simp only [initial, without.symbols, emitted, emittedOther]
  cases stop with
  | some failure =>
    exact ⟨iff_of_false (by simp) (by simp), agree.output, agree.listing, rfl, rfl, agree.report⟩
  | none =>
    dsimp only
    rw [agree.report.hasFatal_eq]
    split
    · exact ⟨iff_of_false (by simp) (by simp), agree.output, agree.listing, rfl, rfl, agree.report⟩
    · exact ⟨Iff.rfl, agree.output, agree.listing, rfl, rfl, agree.report⟩

/-- Runs agree if their first passes do, up to one diagnostic that is not fatal, and if nothing is
written for the one that is written for the other. -/
theorem Without.of_passes (finish : (Layout.ofLines settings.base file lines).finish =
      (Layout.ofLines settings.base file others).finish)
    (without : FirstPass.Without told
      ((FirstPass.start settings file).observeAll
        (Layout.ofLines settings.base file lines).placements).1
      ((FirstPass.start settings file).observeAll
        (Layout.ofLines settings.base file others).placements).1)
    (stops : ((FirstPass.start settings file).observeAll
        (Layout.ofLines settings.base file lines).placements).2 =
      ((FirstPass.start settings file).observeAll
        (Layout.ofLines settings.base file others).placements).2)
    (skips : ∀ table pass,
      SecondPass.observeAll settings table pass (Layout.ofLines settings.base file lines).placements =
        SecondPass.observeAll settings table pass
          (Layout.ofLines settings.base file others).placements) :
    Without told (Run.ofLines settings file lines) (Run.ofLines settings file others) := by
  rw [ofLines_eq_resume, ofLines_eq_resume]
  unfold FirstPass.start at without stops
  unfold resume
  dsimp only
  generalize FirstPass.observeAll _ (Layout.ofLines settings.base file lines).placements = result,
    FirstPass.observeAll _ (Layout.ofLines settings.base file others).placements = resultOther
    at without stops
  obtain ⟨first, stop⟩ := result
  obtain ⟨other, stopOther⟩ := resultOther
  dsimp only at without stops
  -- a run that does not come to its second pass has written nothing
  subst stops
  rw [finish]
  cases stop with
  | some found =>
    exact ⟨iff_of_false (by simp) (by simp), rfl, rfl, without.symbols, rfl, without.report⟩
  | none =>
    cases (Layout.ofLines settings.base file others).finish with
    | error failure =>
      exact ⟨iff_of_false (by simp) (by simp), rfl, rfl, without.symbols, rfl, without.report⟩
    | ok finish =>
      dsimp only
      rw [without.report.hasFatal_eq]
      split
      · exact ⟨iff_of_false (by simp) (by simp), rfl, rfl, without.symbols, rfl, without.report⟩
      · exact .emit without skips

section
variable {before after : List Text} {raw : Text}

theorem eq_blank_of_unplaced {failure : Failure}
    (stopped : (Layout.ofLines settings.base file before).finish = .error failure)
    (raw : Text) (after : List Text) :
    Run.ofLines settings file (before ++ raw :: after) =
      Run.ofLines settings file (before ++ [] :: after) := by
  apply ofLines_congr
  have alone (rest : List Text) : Layout.ofLines settings.base file (before ++ rest) =
      Layout.ofLines settings.base file before := Layout.layFrom_append_of_error stopped rest
  rw [alone, alone]

theorem eq_blank_of_stopped {first : List Placement} {cursor : Cursor} {mid : FirstPass}
    {found : Problem} (laid : Laid file settings.start before first cursor)
    (stopped : (FirstPass.start settings file).observeAll first = (mid, some found))
    (raw : Text) (after : List Text) :
    Run.ofLines settings file (before ++ raw :: after) =
      Run.ofLines settings file (before ++ [] :: after) := by
  have collected (rest : List Text) : (FirstPass.start settings file).observeAll
      (Layout.ofLines settings.base file (before ++ rest)).placements = (mid, some found) := by
    have whole : Layout.ofLines settings.base file (before ++ rest) = _ := laid.layFrom_append rest
    rw [whole, FirstPass.observeAll_append, stopped]
  rw [ofLines_of_stopped (collected _), ofLines_of_stopped (collected _)]

theorem without_of_reached {first : List Placement} {cursor : Cursor} {mid : FirstPass}
    (ignored : Source.Ignored file before raw told)
    (laid : Laid file settings.start before first cursor)
    (collected : (FirstPass.start settings file).observeAll first = (mid, none)) :
    Without told (Run.ofLines settings file (before ++ raw :: after))
      (Run.ofLines settings file (before ++ [] :: after)) := by
  obtain ⟨entry, silenced, placed⟩ := ignored.placed
  obtain ⟨number, inside⟩ : before.length + 1 = cursor.number ∧
      Source.sectionAfterAll none before = cursor.inside := by
    rw [laid.finish_eq]
    exact ⟨Nat.add_comm _ _, rfl⟩
  rw [number, inside] at placed
  -- neither of the two lines takes bytes, so what follows is laid out alike
  have blank : Placed file cursor.number cursor.inside [] cursor.inside
      (.passive ⟨file, cursor.number, [], 0, [], .blank⟩) := .passive (Line.read_nil _ _) nofun
  have layout : Layout.ofLines settings.base file (before ++ raw :: after) = _ :=
    laid.layFrom_inert placed silenced.size after
  have layoutBlank : Layout.ofLines settings.base file (before ++ [] :: after) = _ :=
    laid.layFrom_inert blank rfl after
  obtain ⟨journal, recorded, observed⟩ :=
    silenced.collects cursor.number cursor.address cursor.inside mid
  -- the first passes part here, and by the diagnostic alone
  have differs : FirstPass.Without told { mid with journal } mid := by
    refine ⟨rfl, ?_, ?_, mid.journal.report.diagnostics, [], ?_, (List.append_nil _).symm⟩
    · rw [recorded]
      rfl
    · rw [recorded]
      rfl
    · rw [recorded]
      rfl
  have passes := differs.observeAll
    (Layout.layFrom file (cursor.number + 1) cursor.inside cursor.address after).placements
  refine .of_passes ?_ ?_ ?_ fun table pass => ?_
  · rw [layout, layoutBlank]
  · rw [layout, layoutBlank, FirstPass.observeAll_append, FirstPass.observeAll_append, collected]
    dsimp only
    rw [FirstPass.observeAll, observed]
    exact passes.1
  · rw [layout, layoutBlank, FirstPass.observeAll_append, FirstPass.observeAll_append, collected]
    dsimp only
    rw [FirstPass.observeAll, observed]
    exact passes.2
  · rw [layout, layoutBlank, SecondPass.observeAll_skip (silenced.emits ..),
      SecondPass.observeAll_skip rfl]

/-- Either the first pass does not get as far as an ignored line, or the line adds its diagnostic. -/
theorem unreached_or_without (ignored : Source.Ignored file before raw told) (after : List Text) :
    ¬Reaches settings file before ∧ Run.ofLines settings file (before ++ raw :: after) =
        Run.ofLines settings file (before ++ [] :: after) ∨
      Reaches settings file before ∧ Without told (Run.ofLines settings file (before ++ raw :: after))
        (Run.ofLines settings file (before ++ [] :: after)) := by
  cases layout : Layout.ofLines settings.base file before with
  | mk first ended =>
  cases ended with
  | error failure =>
    have unplaced := congrArg Layout.finish layout
    refine .inl ⟨fun reached => ?_, eq_blank_of_unplaced unplaced raw after⟩
    obtain ⟨⟨finish, placed⟩, -⟩ := reached
    cases unplaced.symm.trans placed
  | ok finish =>
    obtain ⟨cursor, -, laid⟩ := (@Laid.layFrom_eq_iff _ _ settings.start _ _).mp layout
    cases collected : (FirstPass.start settings file).observeAll first with
    | mk mid stop =>
    cases stop with
    | some found =>
      refine .inl ⟨fun reached => ?_, eq_blank_of_stopped laid collected raw after⟩
      have goesOn := reached.2
      rw [layout, collected] at goesOn
      cases goesOn
    | none =>
      refine .inr ⟨⟨⟨finish, congrArg Layout.finish layout⟩, ?_⟩,
        without_of_reached ignored laid collected⟩
      rw [layout, collected]

end

/-- A line that is ignored is inert. With an empty line in its place the run returns exactly if it
returned before, and it has the same output, listing, labels and size. The diagnostic of the line is
the only one that is missing then, and the only one about the line; if the first pass does not get as
far as the line, nothing is different. -/
theorem ignored_line_inert (settings : Settings) (file : Text) (before : List Text) (raw : Text)
    (after : List Text) (told : Diagnostic) (ignored : Source.Ignored file before raw told) :
    let run := Run.ofLines settings file (before ++ raw :: after)
    let blank := Run.ofLines settings file (before ++ [] :: after)
    (run.outcome = .ok () ↔ blank.outcome = .ok ()) ∧ run.output = blank.output ∧
      run.listing = blank.listing ∧ run.symbols = blank.symbols ∧
      run.codeSize settings = blank.codeSize settings ∧
      (Reaches settings file before → ∃ front back,
        run.report.diagnostics = front ++ told :: back ∧ blank.report.diagnostics = front ++ back ∧
          told.line? = some ((before.length + 1 : Nat) : Int) ∧
          ∀ other ∈ front ++ back, other.line? ≠ some ((before.length + 1 : Nat) : Int)) ∧
      (¬Reaches settings file before → run = blank) := by
  intro run blank
  rcases @unreached_or_without settings file told before raw ignored after with
    ⟨missed, same⟩ | ⟨reached, without⟩
  · have equal : run = blank := same
    rw [equal]
    exact ⟨Iff.rfl, rfl, rfl, rfl, rfl, fun reached => absurd reached missed, fun _ => rfl⟩
  · refine ⟨without.outcome, without.output, without.listing, without.symbols,
      congrArg (· - settings.base) without.finish, fun _ => ?_, fun missed => absurd reached missed⟩
    obtain ⟨front, back, own, others⟩ := without.report.diagnostics
    refine ⟨front, back, own, others, ignored.line?_eq, fun other member same => ?_⟩
    -- no two diagnostics are about one line
    have distinct := ((reported_sublist settings file (before ++ raw :: after)).map
      Diagnostic.line?).nodup (Placement.nodup_lines settings _ file _)
    rw [own, List.map_append, List.map_cons, List.nodup_middle, List.nodup_cons, ← List.map_append,
      ignored.line?_eq] at distinct
    exact distinct.1 (same ▸ List.mem_map_of_mem member)

/-- A push of a number between a label and a branch to it. -/
theorem ignored_line_inert_push :
    let before : List Text := [".code", ":TOP"]
    let raw : Text := "push 5"
    let after : List Text := ["brr :TOP", "clr r1"]
    let run := Run.ofLines {} "demo" (before ++ raw :: after)
    let blank := Run.ofLines {} "demo" (before ++ [] :: after)
    let told : Diagnostic :=
      .problem ⟨.pseudoShape "push" ["push rN"], some ⟨"demo", 3, 1⟩, some "push 5"⟩
    Source.Ignored "demo" before raw told ∧ Reaches {} "demo" before ∧ run.outcome = .ok () ∧
      blank.outcome = .ok () ∧ run.output = blank.output ∧ run.report.diagnostics = [told] ∧
      blank.report.diagnostics = [] := by
  intro before raw after run blank told
  have read : Line.read raw "demo" (before.length + 1 : Nat) =
      .ok ⟨"demo", 3, "push 5", 0, "push 5", .content⟩ := by decide +kernel
  have ignored : Source.Ignored "demo" before raw told :=
    .pseudo read rfl (by decide +kernel) (by decide +kernel) rfl
  have reached : Reaches {} "demo" before := ⟨⟨_, rfl⟩, by decide +kernel⟩
  obtain ⟨outcome, output, -, -, -, tells, -⟩ :=
    ignored_line_inert {} "demo" before raw after told ignored
  have returned : run.outcome = .ok () := by decide +kernel
  have silent : blank.report.diagnostics = [] := by decide +kernel
  obtain ⟨front, back, own, others, -⟩ := tells reached
  obtain ⟨rfl, rfl⟩ := List.append_eq_nil_iff.mp (others.symm.trans silent)
  exact ⟨ignored, reached, returned, outcome.mp returned, output, own, silent⟩

end Run

end TwoPass
