import TwoPass.Proofs.Extent
import TwoPass.Proofs.FailureText

/-! Programs at the end of the address space.

Addresses are compared with the largest one at label lines and nowhere else. Everything in front of a
label line of a program that assembles therefore lies inside the address space. A program that has
passed its end at a label line fails, and the problem of that line is among those it tells. What
stands behind the last label line is not bounded. -/

set_option autoImplicit false

namespace TwoPass

namespace Source

theorem extent_label {raw name : Text} (label : labelName? raw = some name)
    (inside : Option Section) (rest : List Text) :
    extent inside (raw :: rest) = extent inside rest := by
  obtain ⟨line, read, body⟩ := exists_label_line label
  simp [extent, lineSize, sectionAfter, read, body]

theorem extent_le_of_prefix {front lines : List Text} (begins : front <+: lines)
    (inside : Option Section) : extent inside front ≤ extent inside lines := by
  obtain ⟨back, rfl⟩ := begins
  rw [extent_append]
  exact Nat.le_add_right _ _

end Source

section
variable {file raw name : Text} {number : Nat} {inside after : Option Section} {entry : Entry}

theorem Placed.passive_of_label (placed : Placed file number inside raw after entry)
    (label : Source.labelName? raw = some name) :
    ∃ line, entry = .passive line ∧ line.body = .label name := by
  cases placed with
  | unread failed =>
    rw [Source.labelName?, Source.line?_eq_none failed] at label
    cases label
  | @passive line read other =>
    refine ⟨line, rfl, ?_⟩
    rw [Source.labelName?_of_read read] at label
    cases body : line.body <;> rw [body] at label <;> cases label
    rfl
  | stray read content | item read content | refused read content =>
    rw [Source.labelName?_of_read read, content] at label
    cases label
  | code read code valid =>
    rw [Source.labelName?_of_read read, valid.content] at label
    cases label

end

namespace Run

variable {settings : Settings} {file : Text} {lines : List Text}

/-- A run that reaches neither a numeral that cannot be converted nor the limit has laid out all
lines. -/
theorem laid_of_converted
    (converted : ∀ fault, (Run.ofLines settings file lines).outcome ≠ .error (.numeral fault))
    (few : fatalCount (Placement.collectingDiagnostics []
      (Layout.ofLines settings.base file lines).placements) < settings.maxErrors) :
    ∃ finish, Laid file settings.start lines (Layout.ofLines settings.base file lines).placements
      finish := by
  obtain ⟨front, finish, begins, laid⟩ := Laid.of_layFrom file settings.start lines
  rcases numbers_of_converted converted with numbers | reached
  · have sameNumbers := laid.numbers_eq.symm.trans numbers
    have length : front.length = lines.length := by
      simpa using congrArg List.length sameNumbers
    rw [begins.eq_of_length length] at laid
    exact ⟨finish, laid⟩
  · omega

theorem few_of_fatal
    (converted : ∀ fault, (Run.ofLines settings file lines).outcome ≠ .error (.numeral fault))
    (below : (Run.ofLines settings file lines).report.fatal.length < settings.maxErrors) :
    fatalCount (Placement.collectingDiagnostics []
      (Layout.ofLines settings.base file lines).placements) < settings.maxErrors := by
  rw [(tells converted).fatal, fatalCount_upToFatal, Placement.diagnostics] at below
  split at below
  · omega
  · omega

theorem label_address_le {before : List Text} {raw : Text} {after : List Text} {name : Text}
    (returned : (Run.ofLines settings file (before ++ raw :: after)).outcome = .ok ())
    (label : Source.labelName? raw = some name) :
    settings.base + Source.extent none before ≤ Machine.maxAddress := by
  obtain ⟨placements, finish, assembled⟩ := assembled_of_outcome returned
  obtain ⟨first, placement, last, cursor, rfl, ahead, -, address, placed, -⟩ := assembled.laid.split
  obtain ⟨line, entry, body⟩ := placed.passive_of_label label
  have symbol : placement.symbol? = some ⟨name, placement.address, some (line.location 0)⟩ := by
    simp only [Placement.symbol?, entry, body]
  have fits := assembled.addresses placement (by simp) _ symbol
  rw [address, ahead.finish_eq] at fits
  exact fits

theorem overflow_recorded {before : List Text} {raw : Text} {after : List Text} {name : Text}
    (label : Source.labelName? raw = some name)
    (passed : Machine.maxAddress < settings.base + Source.extent none before)
    (converted : ∀ fault, (Run.ofLines settings file (before ++ raw :: after)).outcome ≠
      .error (.numeral fault))
    (below : (Run.ofLines settings file (before ++ raw :: after)).report.fatal.length <
      settings.maxErrors) :
    ∃ location, .problem ⟨.addressOverflow name (settings.base + Source.extent none before),
      some location, none⟩ ∈ (Run.ofLines settings file (before ++ raw :: after)).report.diagnostics := by
  have few := few_of_fatal converted below
  obtain ⟨finish, laid⟩ := laid_of_converted converted few
  obtain ⟨first, placement, last, cursor, same, ahead, -, address, placed, -⟩ := laid.split
  obtain ⟨line, entry, body⟩ := placed.passive_of_label label
  have place : placement.address = settings.base + Source.extent none before := by
    rw [address, ahead.finish_eq]
    rfl
  have unfit : ¬settings.base + Source.extent none before ≤ Machine.maxAddress := by omega
  have told (others : List Placement) : placement.toldOnCollecting others =
      [.problem ⟨.addressOverflow name (settings.base + Source.extent none before),
        some (line.location 0), none⟩] := by
    simp only [Placement.toldOnCollecting, entry, body, place, if_neg unfit]
    rfl
  refine ⟨line.location 0, ?_⟩
  rw [(tells converted).recorded]
  apply Placement.mem_upToFatal_of_collecting few
  have member : placement ∈ first ++ placement :: last := by simp
  rw [← same] at member
  apply Placement.mem_collecting_of_told member
  intro others
  rw [told others]
  exact List.mem_singleton_self _

/-- What a label line says about the addresses in front of it. If the program assembles, all that stands
in front of the line lies inside the address space, and the end of the program is beyond the line by
what stands behind it. If the end of the address space has been passed at the line, the program does
not assemble, and unless another end comes first the problem of the line is recorded and quoted. -/
theorem labels_within_address_space (settings : Settings) (file : Text) (before : List Text)
    (raw : Text) (after : List Text) (name : Text) (label : Source.labelName? raw = some name) :
    let run := Run.ofLines settings file (before ++ raw :: after)
    let address := settings.base + Source.extent none before
    (run.outcome = .ok () →
        (∀ front, front <+: before →
          settings.base + Source.extent none front ≤ Machine.maxAddress) ∧
        run.finish = address + Source.extent (Source.sectionAfterAll none before) after) ∧
      (Machine.maxAddress < address →
        run.outcome ≠ .ok () ∧
        ((∀ fault, run.outcome ≠ .error (.numeral fault)) →
          run.report.fatal.length < settings.maxErrors →
          ∃ found location, run.outcome = .error (.problem found) ∧
            .problem ⟨.addressOverflow name address, some location, none⟩ ∈
              run.report.diagnostics ∧
            (Diagnostic.problem ⟨.addressOverflow name address, some location, none⟩).text <:+:
              found.text)) := by
  intro run address
  constructor
  · intro returned
    have fits := label_address_le returned label
    constructor
    · intro front begins
      have less := Source.extent_le_of_prefix begins none
      omega
    · obtain ⟨placements, finish, assembled⟩ := assembled_of_outcome returned
      have ended : run.finish = settings.base + Source.extent none (before ++ raw :: after) := by
        rw [assembled.ended, assembled.laid.finish_eq]
        rfl
      rw [ended, Source.extent_append, Source.extent_label label, Nat.add_assoc]
  · intro passed
    have failed : run.outcome ≠ .ok () := by
      intro returned
      have fits := label_address_le returned label
      omega
    refine ⟨failed, fun converted below => ?_⟩
    obtain ⟨location, recorded⟩ := overflow_recorded label passed converted below
    cases outcome : run.outcome with
    | ok value => exact absurd outcome failed
    | error failure =>
      rcases inconvertible_of_outcome outcome with ⟨found, rfl⟩ | ⟨-, -, -, -, fault, -, -, rfl⟩
      · refine ⟨found, location, rfl, recorded, ?_⟩
        cases fails_of_outcome outcome with
        | stopped reached =>
          exact absurd reached (Nat.ne_of_lt below)
        | reported => exact Report.infix_text_failure recorded
      · exact absurd outcome (converted fault)

/-- Three words short of the end there is room for a push and a label behind it, but not for a label
behind a push and a halt. -/
theorem labels_within_address_space_at_end :
    let settings : Settings := { base := 0xFFFFFFF4 }
    let pushing : List Text := [".code", "\tpush r1"]
    let halting : List Text := [".code", "\tpush r1", "\thalt"]
    let label : Text := ":END"
    let inside := Run.ofLines settings "demo" (pushing ++ label :: ["\thalt"])
    let beyond := Run.ofLines settings "demo" (halting ++ label :: [])
    inside.outcome = .ok () ∧ inside.finish = 0x100000000 ∧
      ∃ found location, beyond.outcome = .error (.problem found) ∧
        (Diagnostic.problem ⟨.addressOverflow "END" 0x100000000, some location, none⟩).text <:+:
          found.text := by
  intro settings pushing halting label inside beyond
  have named : Source.labelName? label = some "END" := by decide +kernel
  have returned : inside.outcome = .ok () := by decide +kernel
  have failed : beyond.outcome = .error (.problem beyond.report.failure) := by decide +kernel
  have converted : ∀ fault, beyond.outcome ≠ .error (.numeral fault) := by
    intro fault other
    rw [failed] at other
    cases other
  obtain ⟨fits, -⟩ := labels_within_address_space settings "demo" pushing label ["\thalt"] "END" named
  obtain ⟨-, passes⟩ := labels_within_address_space settings "demo" halting label [] "END" named
  obtain ⟨-, told⟩ := passes (by decide +kernel)
  obtain ⟨found, location, ends, -, quoted⟩ := told converted (by decide +kernel)
  refine ⟨returned, ?_, found, location, ends, quoted⟩
  rw [(fits returned).2]
  decide +kernel

/-- Behind the last label line nothing is compared: this program assembles, and its halt lies past the
end of the address space. -/
theorem halt_past_address_space :
    let settings : Settings := { base := 0xFFFFFFF8 }
    let run := Run.ofLines settings "demo" [".code", "\tpush r1", "\thalt"]
    run.outcome = .ok () ∧ run.report.diagnostics = [] ∧
      settings.base + run.codeSize settings = 2 ^ 32 + 4 ∧
      ∃ entry ∈ run.listing, entry.address = 2 ^ 32 := by
  decide +kernel

end Run

end TwoPass
