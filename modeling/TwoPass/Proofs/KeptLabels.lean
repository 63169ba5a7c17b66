import TwoPass.Proofs.OutputLayout
import TwoPass.Proofs.Share

/-! Runs that keep label lines beside runs that drop them.

Both go through the same layout and collect the same labels. In the second pass they write the same but
for the label lines, and no other line of the output can be taken for one of those. -/

set_option autoImplicit false

namespace TwoPass

def Settings.keeping (settings : Settings) (keepLabels : Bool) : Settings :=
  { settings with keepLabels }

def OutputLine.isLabel : OutputLine → Bool
  | .label _ => true
  | _ => false

def isUnmarked (line : Text) : Bool := line.head? != some '\t' && line.head? != some '.'

def Emission.unlabelled : Emission → Emission
  | .label _ => .nothing
  | other => other

def SecondPass.unlabelled (pass : SecondPass) : SecondPass :=
  { pass with output := pass.output.filter (!·.isLabel) }

namespace Emission

variable (settings : Settings) (table : SymbolTable)

theorem unresolved_unlabelled (source : Text) (found : Problem) :
    (unresolved settings source found).map unlabelled = unresolved settings source found := by
  unfold unresolved
  split <;> rfl

theorem ofItem_unlabelled (line : Line) :
    (ofItem settings table line).map unlabelled = ofItem settings table line := by
  unfold ofItem
  split
  · rfl
  · exact unresolved_unlabelled settings _ _

theorem ofCode_unlabelled (place : Nat) (statement : Statement) (instruction : Instruction)
    (shape : Shape) : (ofCode settings table place statement instruction shape).map unlabelled =
      ofCode settings table place statement instruction shape := by
  unfold ofCode
  split
  · exact unresolved_unlabelled settings _ _
  · rfl
  · next resolved _ =>
    split
    · cases resolved.expand <;> rfl
    · rfl

/-- Whether labels are kept shows at label lines alone. -/
theorem ofPlacement_keeping (placement : Placement) :
    ofPlacement (settings.keeping false) table placement =
      (ofPlacement (settings.keeping true) table placement).map unlabelled := by
  unfold ofPlacement
  cases placement.entry with
  | rejected line found => by_cases fatal : found.isFatal = true <;> simp [fatal, Except.map, unlabelled]
  | stray line => rfl
  | item line => exact (ofItem_unlabelled (settings.keeping true) table line).symm
  | code statement instruction shape =>
    exact (ofCode_unlabelled (settings.keeping true) table _ statement instruction shape).symm
  | passive line => cases body : line.body <;> simp [body, Except.map, unlabelled, Settings.keeping]

end Emission

namespace SecondPass

variable (settings : Settings) (table : SymbolTable)

theorem write_unlabelled (pass : SecondPass) (placement : Placement) (emission : Emission) :
    pass.unlabelled.write placement emission.unlabelled =
      ((pass.write placement emission).1.unlabelled, (pass.write placement emission).2) := by
  have indented (texts : List Text) :
      (texts.map OutputLine.indented).filter (!·.isLabel) = texts.map .indented := by
    rw [List.filter_eq_self]
    simp [OutputLine.isLabel]
  cases emission with
  | nothing => rfl
  | directive target =>
    by_cases same : pass.written = some target
    · simp [write, unlabelled, Emission.unlabelled, same]
    · simp [write, unlabelled, Emission.unlabelled, same, OutputLine.isLabel]
  | label name => simp [write, unlabelled, Emission.unlabelled, OutputLine.isLabel]
  | lines source texts => simp [write, writeLines, unlabelled, Emission.unlabelled, indented]
  | verbatim source found =>
    simp [write, writeLines, reject, unlabelled, Emission.unlabelled, OutputLine.isLabel]

theorem observe_unlabelled (pass : SecondPass) (placement : Placement) :
    observe (settings.keeping false) table pass.unlabelled placement =
      ((observe (settings.keeping true) table pass placement).1.unlabelled,
        (observe (settings.keeping true) table pass placement).2) := by
  unfold observe
  rw [Emission.ofPlacement_keeping]
  cases Emission.ofPlacement (settings.keeping true) table placement with
  | ok emission => exact write_unlabelled pass placement emission
  | error failure => cases failure <;> rfl

theorem observeAll_unlabelled (pass : SecondPass) (placements : List Placement) :
    observeAll (settings.keeping false) table pass.unlabelled placements =
      ((observeAll (settings.keeping true) table pass placements).1.unlabelled,
        (observeAll (settings.keeping true) table pass placements).2) := by
  induction placements generalizing pass with
  | nil => rfl
  | cons placement rest ih =>
    have step := observe_unlabelled settings table pass placement
    rw [observeAll, observeAll, step]
    generalize observe (settings.keeping true) table pass placement = result
    obtain ⟨after, stop⟩ := result
    cases stop with
    | some failure => rfl
    | none => exact ih after

end SecondPass

namespace Run

variable {settings : Settings} {file : Text} {lines : List Text}

structure Unlabelled (kept dropped : Run) : Prop where
  outcome : dropped.outcome = kept.outcome
  symbols : dropped.symbols = kept.symbols
  report : dropped.report = kept.report
  listing : dropped.listing = kept.listing
  finish : dropped.finish = kept.finish
  output : dropped.output = kept.output.filter (!·.isLabel)

theorem unlabelled_emit (settings : Settings) (file : Text) (placements : List Placement)
    (finish : Nat) (first : FirstPass) :
    Unlabelled (emit (settings.keeping true) (initial settings) file placements finish first)
      (emit (settings.keeping false) (initial settings) file placements finish first) := by
  have observed := SecondPass.observeAll_unlabelled settings first.symbols.freeze
    (first.handOver file finish) placements
  have begun : (first.handOver file finish).unlabelled = first.handOver file finish := rfl
  rw [begun] at observed
  generalize went : SecondPass.observeAll (settings.keeping true) first.symbols.freeze
    (first.handOver file finish) placements = result at observed
  obtain ⟨second, stop⟩ := result
  unfold FirstPass.handOver at observed went
  unfold emit
  simp only [initial, observed, went]
  cases stop with
  | some failure => exact ⟨rfl, rfl, rfl, rfl, rfl, rfl⟩
  | none =>
    by_cases fatal : second.journal.report.hasFatal = true
    · have same : second.unlabelled.journal.report.hasFatal = true := fatal
      simp only [fatal, same, if_true]
      exact ⟨rfl, rfl, rfl, rfl, rfl, rfl⟩
    · have same : ¬second.unlabelled.journal.report.hasFatal = true := fatal
      simp only [fatal, same]
      exact ⟨rfl, rfl, rfl, rfl, rfl, rfl⟩

theorem unlabelled_ofLines (settings : Settings) (file : Text) (lines : List Text) :
    Unlabelled (Run.ofLines (settings.keeping true) file lines)
      (Run.ofLines (settings.keeping false) file lines) := by
  -- layout and first pass do not look at the setting, so that both runs come alike to the second
  have start (keepLabels : Bool) : initial (settings.keeping keepLabels) = initial settings := rfl
  have base (keepLabels : Bool) : (settings.keeping keepLabels).base = settings.base := rfl
  rw [ofLines_eq_resume, ofLines_eq_resume, start, start]
  unfold resume
  rw [base, base]
  dsimp only
  split
  · exact ⟨rfl, rfl, rfl, rfl, rfl, rfl⟩
  · exact ⟨rfl, rfl, rfl, rfl, rfl, rfl⟩
  · split
    · exact ⟨rfl, rfl, rfl, rfl, rfl, rfl⟩
    · exact unlabelled_emit settings file _ _ _

end Run

theorem isUnmarked_render {line : OutputLine}
    (named : ∀ name, line = .label name → Text.isName name = true) :
    isUnmarked line.render = line.isLabel := by
  cases line with
  | directive target => rfl
  | indented text => rfl
  | label name =>
    have tab := OutputReader.head?_label_ne (named name rfl) (show Text.isNameStart '\t' = false by decide)
    have dot := OutputReader.head?_label_ne (named name rfl) (show Text.isNameStart '.' = false by decide)
    simp only [isUnmarked, OutputLine.isLabel, Bool.and_eq_true, bne_iff_ne]
    exact ⟨tab, dot⟩

theorem Emission.labels_eq_nil {emission : Emission} (same : emission.unlabelled = emission)
    (written : Option Section) : (emission.outputLines written).filter OutputLine.isLabel = [] := by
  rw [List.filter_eq_nil_iff]
  cases emission with
  | label name => cases same
  | directive target =>
    by_cases repeated : written = some target <;> simp [outputLines, repeated, OutputLine.isLabel]
  | _ => simp [outputLines, OutputLine.isLabel]

section
variable {settings : Settings} {table : SymbolTable}

theorem Placement.labels_emission (kept : settings.keepLabels = true) (placement : Placement)
    (written : Option Section) :
    ((placement.emission settings table).outputLines written).filter OutputLine.isLabel =
      placement.symbol?.toList.map fun symbol => .label symbol.name := by
  unfold Placement.emission Emission.ofPlacement Placement.symbol?
  cases placement.entry with
  | rejected line found => by_cases fatal : found.isFatal = true <;> simp [fatal, Emission.outputLines]
  | stray line => rfl
  | item line =>
    have unlabelled := Emission.ofItem_unlabelled settings table line
    dsimp only
    cases emits : Emission.ofItem settings table line with
    | error failure => rfl
    | ok emission =>
      rw [emits] at unlabelled
      exact Emission.labels_eq_nil (Except.ok.inj unlabelled) written
  | code statement instruction shape =>
    have unlabelled := Emission.ofCode_unlabelled settings table placement.address statement instruction shape
    dsimp only
    cases emits : Emission.ofCode settings table placement.address statement instruction shape with
    | error failure => rfl
    | ok emission =>
      rw [emits] at unlabelled
      exact Emission.labels_eq_nil (Except.ok.inj unlabelled) written
  | passive line =>
    cases body : line.body with
    | label name => simp [body, kept, Emission.outputLines, OutputLine.isLabel]
    | _ =>
      simp only [body]
      exact Emission.labels_eq_nil rfl written

theorem labels_outputShares (kept : settings.keepLabels = true) (placements : List Placement)
    (written : Option Section) :
    (outputShares settings table written placements).flatten.filter OutputLine.isLabel =
      (placements.filterMap Placement.symbol?).map fun symbol => .label symbol.name := by
  induction placements generalizing written with
  | nil => rfl
  | cons placement rest ih =>
    rw [outputShares, List.flatten_cons, List.filter_append, ih, placement.labels_emission kept]
    cases made : placement.symbol? <;> simp [made]

end

theorem Source.isName_of_labelName? {raw name : Text} (label : Source.labelName? raw = some name) :
    Text.isName name = true := by
  obtain ⟨line, known, body⟩ := Source.exists_label_line label
  cases read : Line.read raw [] 0 with
  | error found => cases (Source.line?_eq_none read).symm.trans known
  | ok own =>
    rw [Source.line?_eq_some read, Option.some.injEq] at known
    subst known
    exact Line.isName_of_read read body

namespace Run

variable {settings : Settings} {file : Text} {lines : List Text}

/-- However far a run has come, the labels that it has written are those of its first lines. -/
theorem labels_begin (kept : settings.keepLabels = true) :
    ∃ names, names <+: lines.filterMap Source.labelName? ∧
      (Run.ofLines settings file lines).output.filter OutputLine.isLabel = names.map .label := by
  have emitting {placements : List Placement} {finish : Nat} {first : FirstPass}
      (collects : Collects settings file lines placements finish first) :
      ∃ names, names <+: lines.filterMap Source.labelName? ∧
        (Run.ofLines settings file lines).output.filter OutputLine.isLabel = names.map .label := by
    obtain ⟨front, rest, rfl, output, -⟩ := collects.shares
    obtain ⟨after, -, laid⟩ := collects.laid
    refine ⟨(front.filterMap Placement.symbol?).map Symbol.name, ?_, ?_⟩
    · rw [← laid.names_eq, List.filterMap_append, List.map_append]
      exact List.prefix_append _ _
    · rw [output, labels_outputShares kept, List.map_map]
      rfl
  have unwritten : ∃ names, names <+: lines.filterMap Source.labelName? ∧
      [].filter OutputLine.isLabel = names.map .label := ⟨[], List.nil_prefix, rfl⟩
  have went := course settings file lines
  generalize Run.ofLines settings file lines = run at went emitting ⊢
  cases went with
  | stopped | interrupted | rejected => exact unwritten
  | halted collects | failed collects | returned collects => exact emitting collects

theorem isUnmarked_of_output (kept : settings.keepLabels = true) :
    ∀ line ∈ (Run.ofLines settings file lines).output, isUnmarked line.render = line.isLabel := by
  intro line written
  apply isUnmarked_render
  rintro name rfl
  obtain ⟨names, front, labels⟩ := @labels_begin settings file lines kept
  have listed : OutputLine.label name ∈ names.map OutputLine.label := by
    rw [← labels]
    exact List.mem_filter.mpr ⟨written, rfl⟩
  obtain ⟨own, member, same⟩ := List.mem_map.mp listed
  cases same
  obtain ⟨raw, -, label⟩ := List.mem_filterMap.mp (front.subset member)
  exact Source.isName_of_labelName? label

theorem labels_of_outcome (kept : settings.keepLabels = true)
    (returned : (Run.ofLines settings file lines).outcome = .ok ()) :
    (Run.ofLines settings file lines).output.filter OutputLine.isLabel =
      (lines.filterMap Source.labelName?).map .label := by
  obtain ⟨placements, finish, assembled⟩ := assembled_of_outcome returned
  rw [(shares_of_outcome returned).1, assembled.placements_eq, labels_outputShares kept,
    ← assembled.laid.names_eq, List.map_map]
  rfl

/-- Keeping labels adds label lines to the output and changes nothing else. The run that drops them ends
as the one that keeps them, with the same labels, listing, size and diagnostics, and its output lacks
exactly the lines that begin neither with a tab nor with a dot. If the runs return, those lines are one
for each label line of the source, in order. -/
theorem labels_only_added (settings : Settings) (file : Text) (lines : List Text) :
    let kept := Run.ofLines (settings.keeping true) file lines
    let dropped := Run.ofLines (settings.keeping false) file lines
    dropped.outcome = kept.outcome ∧ dropped.symbols = kept.symbols ∧
      dropped.listing = kept.listing ∧ dropped.listingText = kept.listingText ∧
      dropped.codeSize (settings.keeping false) = kept.codeSize (settings.keeping true) ∧
      dropped.report = kept.report ∧
      dropped.outputLines = kept.outputLines.filter (!isUnmarked ·) ∧
      (kept.outcome = .ok () → kept.outputLines.filter isUnmarked =
        (lines.filterMap Source.labelName?).map fun name : Text => name ++ ":") := by
  intro kept dropped
  have beside : Unlabelled kept dropped := unlabelled_ofLines settings file lines
  have marked : ∀ line ∈ kept.output, isUnmarked line.render = line.isLabel :=
    isUnmarked_of_output rfl
  refine ⟨beside.outcome, beside.symbols, beside.listing, ?_, ?_, beside.report, ?_,
    fun returned => ?_⟩
  · rw [listingText, listingText, beside.listing, beside.symbols]
  · rw [codeSize, codeSize, beside.finish]
    rfl
  · rw [outputLines, outputLines, beside.output, List.filter_map]
    congr 1
    apply List.filter_congr
    intro line written
    rw [Function.comp_apply, marked line written]
  · have labels : kept.output.filter (isUnmarked ∘ OutputLine.render) =
        kept.output.filter OutputLine.isLabel := List.filter_congr marked
    rw [outputLines, List.filter_map, labels, labels_of_outcome rfl returned, List.map_map]
    rfl

/-- A label that is defined twice, an item and a code line that look like label lines, and a comment. -/
theorem labels_only_added_twice :
    let lines : List Text := [":A ; first", ".data", " A: :A", ":A", ".code", "brr :A", "; end"]
    let kept := Run.ofLines (({} : Settings).keeping true) "demo" lines
    let dropped := Run.ofLines (({} : Settings).keeping false) "demo" lines
    kept.outcome = .ok () ∧
      kept.outputLines = (["A:", ".data", "\tA: 4104", "A:", ".code", "\tbrr 0"] : List Text) ∧
      dropped.outputLines = kept.outputLines.filter (!isUnmarked ·) ∧
      lines.filterMap Source.labelName? = ["A", "A"] ∧
      kept.outputLines.filter isUnmarked =
        (lines.filterMap Source.labelName?).map fun name : Text => name ++ ":" := by
  intro lines kept dropped
  have returned : kept.outcome = .ok () := by decide +kernel
  obtain ⟨-, -, -, -, -, -, output, labels⟩ := labels_only_added {} "demo" lines
  exact ⟨returned, by decide +kernel, output, by decide +kernel, labels returned⟩

end Run

end TwoPass
