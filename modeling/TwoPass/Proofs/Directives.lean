import Mathlib.Data.List.Destutter
import TwoPass.Proofs.Listing

/-! Sections in the source and in the output.

The layout goes by the last directive line of the source, the second pass by the last one that it has
written. Both change at the same lines, so leaving out a directive that would repeat the one before
moves no line to another section. -/

set_option autoImplicit false

namespace TwoPass

def Section.directive (target : Section) : Text := "." ++ target.name

theorem Section.directive_injective : Function.Injective Section.directive := by
  intro first second same
  cases first <;> cases second <;> first | rfl | cases same

def isDirectiveLine (line : Text) : Bool := line.head? == some '.'

def Source.directive? (raw : Text) : Option Section :=
  match (line? raw).map Line.body with
  | some (.directive target) => some target
  | _ => none

/-- Directives without those that repeat the one before, where `written` is in front of them. -/
def Section.collapse : (written : Option Section) → List Section → List Section
  | _, [] => []
  | written, target :: rest =>
    if written = some target then collapse written rest else target :: collapse (some target) rest

def nearestDirective (outer : Option Text) (lines : List Text) : Option Text :=
  (lines.filter isDirectiveLine).getLast?.or outer

def ListingEntry.owned (entry : ListingEntry) : List (ListingEntry × Text) :=
  entry.indented.map (entry, ·)

theorem Section.cons_collapse (target : Section) (rest : List Section) :
    target :: collapse (some target) rest = rest.destutter' (· ≠ ·) target := by
  induction rest generalizing target with
  | nil => rfl
  | cons next rest ih =>
    by_cases same : target = next
    · subst same
      rw [collapse, if_pos rfl, List.destutter'_cons_neg _ (by simp), ih]
    · rw [collapse, if_neg (by simpa using same), List.destutter'_cons_pos _ same, ih]

/-- With nothing written yet, adjacent repetitions are removed and no other. -/
theorem Section.collapse_none (directives : List Section) :
    collapse none directives = directives.destutter (· ≠ ·) := by
  cases directives with
  | nil => rfl
  | cons target rest =>
    rw [collapse, if_neg (by simp), cons_collapse, List.destutter_cons']

theorem Source.sectionAfter_eq (inside : Option Section) (raw : Text) :
    sectionAfter inside raw = (directive? raw).or inside := by
  unfold sectionAfter directive?
  cases (line? raw).map Line.body with
  | none => rfl
  | some body => cases body <;> rfl

theorem Placed.directive?_eq {file raw : Text} {number : Nat} {inside after : Option Section}
    {placement : Placement} (placed : Placed file number inside raw after placement.entry) :
    placement.directive? = Source.directive? raw := by
  unfold Placement.directive? Source.directive?
  generalize placement.entry = entry at placed
  cases placed with
  | unread failed => rw [Source.line?_eq_none failed]; rfl
  | @passive line read other =>
    rw [Source.line?_eq_some read]
    dsimp only [Option.map_some]
    cases line.body <;> rfl
  | stray read content | item read content | refused read content =>
    rw [Source.line?_eq_some read, Option.map_some, content]
  | code read code valid => rw [Source.line?_eq_some read, Option.map_some, valid.content]

theorem Laid.directives_eq {file : Text} {start finish : Cursor} {lines : List Text}
    {placements : List Placement} (laid : Laid file start lines placements finish) :
    placements.filterMap Placement.directive? = lines.filterMap Source.directive? := by
  induction laid with
  | nil cursor => rfl
  | cons number address placed laid ih =>
    rw [List.filterMap_cons, List.filterMap_cons, placed.directive?_eq, ih]

namespace Placement.Contributes

variable {placement : Placement} {emission : Emission}

theorem sectionAfter_eq (contributes : placement.Contributes emission) (written : Option Section) :
    emission.sectionAfter written = placement.directive?.or written := by
  cases contributes with
  | directive directed =>
    rw [directed]
    rfl
  | nothing undirected | label undirected | lines undirected | verbatim undirected =>
    rw [undirected]
    rfl

theorem directives_eq (contributes : placement.Contributes emission) (written : Option Section) :
    ((emission.outputLines written).map OutputLine.render).filter isDirectiveLine =
      (Section.collapse written placement.directive?.toList).map Section.directive := by
  cases contributes with
  | @directive target directed =>
    rw [directed]
    by_cases same : written = some target
    · simp [Emission.outputLines, same, Section.collapse]
    · simp [Emission.outputLines, same, Section.collapse, OutputLine.render, isDirectiveLine,
        Section.directive]
  | @label name undirected unlisted named =>
    have dot := OutputReader.head?_label_ne named (show Text.isNameStart '.' = false by decide)
    rw [undirected]
    simp [Emission.outputLines, isDirectiveLine, dot, Section.collapse]
  | nothing undirected | verbatim undirected =>
    rw [undirected]
    rfl
  | lines undirected =>
    rw [undirected]
    simp [Emission.outputLines, OutputLine.render, isDirectiveLine, Section.collapse]

end Placement.Contributes

section
variable {settings : Settings} {table : SymbolTable} {placements : List Placement}

theorem directives_outputShares (contribute : ∀ placement ∈ placements,
      placement.Contributes (placement.emission settings table)) (written : Option Section) :
    ((outputShares settings table written placements).flatten.map OutputLine.render).filter
        isDirectiveLine =
      (Section.collapse written (placements.filterMap Placement.directive?)).map
        Section.directive := by
  induction placements generalizing written with
  | nil => rfl
  | cons placement rest ih =>
    rw [List.forall_mem_cons] at contribute
    rw [outputShares, List.flatten_cons, List.map_append, List.filter_append,
      contribute.1.directives_eq, contribute.1.sectionAfter_eq, ih contribute.2]
    -- a directive that is left out leaves the section as it is, and any other changes it
    cases directed : placement.directive? with
    | none => simp [directed, Section.collapse]
    | some target =>
      by_cases same : written = some target
      · simp [directed, Section.collapse, same]
      · simp [directed, Section.collapse, same]

end

theorem nearestDirective_append (outer : Option Text) (first second : List Text) :
    nearestDirective outer (first ++ second) =
      nearestDirective (nearestDirective outer first) second := by
  simp only [nearestDirective, List.filter_append, List.getLast?_append, Option.or_assoc]

theorem ListingEntry.isIndented_of_mem {entry : ListingEntry} {line : Text}
    (member : line ∈ entry.indented) : isIndented line = true ∧ isDirectiveLine line = false := by
  obtain ⟨text, -, rfl⟩ := List.mem_map.mp member
  exact ⟨rfl, rfl⟩

theorem Placed.exists_section {file raw : Text} {number : Nat} {inside after : Option Section}
    {placement : Placement} {content : Nat × Nat × Text}
    (placed : Placed file number inside raw after placement.entry)
    (listed : placement.content? = some content) : ∃ target, inside = some target := by
  unfold Placement.content? at listed
  generalize placement.entry = entry at placed listed
  cases placed with
  | item read content data => exact ⟨.data, data⟩
  | code read code valid => exact ⟨.code, code⟩
  | _ => cases listed

namespace Placement.Contributes

variable {placement : Placement} {emission : Emission}

theorem inside_eq (contributes : placement.Contributes emission) {file raw : Text} {number : Nat}
    {inside : Option Section}
    (placed : Placed file number inside raw placement.inside placement.entry) :
    emission.sectionAfter inside = placement.inside := by
  rw [contributes.sectionAfter_eq, placed.directive?_eq, ← Source.sectionAfter_eq,
    ← placed.section_eq]

/-- Behind what is written for a line, the nearest directive names the section behind that line. -/
theorem nearestDirective_eq (contributes : placement.Contributes emission)
    (written : Option Section) :
    nearestDirective (written.map Section.directive)
        ((emission.outputLines written).map OutputLine.render) =
      (emission.sectionAfter written).map Section.directive := by
  rw [nearestDirective, contributes.directives_eq, contributes.sectionAfter_eq]
  cases placement.directive? with
  | none => rfl
  | some target =>
    by_cases same : written = some target
    · simp [same, Section.collapse]
    · simp [same, Section.collapse]

/-- If an indented line is written for a line, then that line has an entry, and nothing is written for
it that the entry does not tell of. -/
theorem exists_entry (contributes : placement.Contributes emission) {written : Option Section}
    {before after : List Text} {line : Text}
    (split : (emission.outputLines written).map OutputLine.render = before ++ line :: after)
    (indented : isIndented line = true) :
    ∃ entry text, emission.listed placement = [entry] ∧ entry.indented = before ++ line :: after ∧
      entry.content = (placement.number, placement.address, text) ∧
      placement.content? = some (placement.number, placement.address, text) := by
  have told : line ∈ (emission.listed placement).flatMap ListingEntry.indented := by
    rw [← contributes.indented_eq written, split]
    simp [indented]
  -- only content is told of, so the other kinds of line write nothing indented
  cases contributes with
  | nothing | directive | label => cases told
  | lines undirected content =>
    refine ⟨_, _, rfl, ?_, rfl, content⟩
    rw [← split]
    simp [ListingEntry.indented, Emission.outputLines, OutputLine.render]
  | verbatim undirected content => exact ⟨_, _, rfl, split, rfl, content⟩

end Placement.Contributes

/-- The indented line behind `before` is one of `entry`, the line that the entry is about stands in the
section `target`, and the nearest directive names that section. -/
structure Governed (listing : List ListingEntry) (start : Cursor) (lines before : List Text)
    (line : Text) (entry : ListingEntry) (target : Section) : Prop where
  owned : (listing.flatMap ListingEntry.owned)[before.countP isIndented]? = some (entry, line)
  inside : ∃ front raw back, lines = front ++ raw :: back ∧
    entry.number = start.number + front.length ∧ entry.source = Source.stripped raw ∧
    Source.sectionAfterAll start.inside front = some target
  nearest : nearestDirective (start.inside.map Section.directive) before = some target.directive

section
variable {settings : Settings} {table : SymbolTable} {file raw line : Text} {start finish : Cursor}
  {lines before after : List Text} {placement : Placement} {placements : List Placement}
  {listing : List ListingEntry} {entry : ListingEntry} {target : Section} {emission : Emission}

theorem Governed.of_contributes (contributes : placement.Contributes emission)
    (number : placement.number = start.number)
    (placed : Placed file placement.number start.inside raw placement.inside placement.entry)
    (split : (emission.outputLines start.inside).map OutputLine.render = before ++ line :: after)
    (indented : isIndented line = true) :
    ∃ entry target, Governed (emission.listed placement ++ listing) start (raw :: lines) before line
      entry target := by
  obtain ⟨entry, text, listed, own, content, placedContent⟩ :=
    contributes.exists_entry split indented
  obtain ⟨target, inside⟩ := placed.exists_section placedContent
  obtain ⟨source, -, -⟩ := placed.stripped_of_content placedContent
  -- within the share of the first line nothing but lines of its entry stands in front
  have front : ∀ other ∈ before, isIndented other = true ∧ isDirectiveLine other = false :=
    fun other member => ListingEntry.isIndented_of_mem (own ▸ List.mem_append_left _ member)
  have counted : before.countP isIndented = before.length :=
    List.countP_eq_length.mpr fun other member => (front other member).1
  have undirected : before.filter isDirectiveLine = [] :=
    List.filter_eq_nil_iff.mpr fun other member => by simp [(front other member).2]
  refine ⟨entry, target, ?_, ⟨[], raw, lines, rfl, ?_, ?_, inside⟩, ?_⟩
  · rw [listed, counted, List.singleton_append, List.flatMap_cons, ListingEntry.owned, own]
    simp
  · exact (congrArg Prod.fst content).trans number
  · exact (congrArg (·.2.2) content).trans source
  · rw [nearestDirective, undirected, inside]
    rfl

theorem Governed.behind (contributes : placement.Contributes emission)
    (number : placement.number = start.number)
    (placed : Placed file placement.number start.inside raw placement.inside placement.entry)
    (governed : Governed listing placement.after lines before line entry target) :
    Governed (emission.listed placement ++ listing) start (raw :: lines)
      ((emission.outputLines start.inside).map OutputLine.render ++ before) line entry target := by
  obtain ⟨owned, ⟨front, own, back, rfl, entryNumber, source, inside⟩, nearest⟩ := governed
  refine ⟨?_, ⟨raw :: front, own, back, rfl, ?_, source, ?_⟩, ?_⟩
  · -- as many indented lines are passed over as the entry of the first line has
    have skipped : ((emission.outputLines start.inside).map OutputLine.render).countP isIndented =
        ((emission.listed placement).flatMap ListingEntry.owned).length := by
      rw [List.countP_eq_length_filter, contributes.indented_eq]
      simp [List.length_flatMap, ListingEntry.owned]
    rw [List.flatMap_append, List.countP_append, skipped, List.getElem?_append_right (by omega),
      Nat.add_sub_cancel_left, owned]
  · rw [entryNumber, List.length_cons]
    simp only [Placement.after]
    omega
  · rw [Source.sectionAfterAll, List.foldl_cons, ← placed.section_eq]
    exact inside
  · rw [nearestDirective_append, contributes.nearestDirective_eq, contributes.inside_eq placed]
    exact nearest

/-- Every indented line of the output has its section from the directive nearest to it. -/
theorem Laid.exists_governed (laid : Laid file start lines placements finish)
    (contribute : ∀ placement ∈ placements,
      placement.Contributes (placement.emission settings table))
    (split : (outputShares settings table start.inside placements).flatten.map OutputLine.render =
      before ++ line :: after) (indented : isIndented line = true) :
    ∃ entry target,
      Governed (listedFor settings table placements) start lines before line entry target := by
  induction laid generalizing before with
  | nil cursor => cases before <;> cases split
  | @cons cursor finish raw rest placement placements number address placed laid ih =>
    rw [List.forall_mem_cons] at contribute
    obtain ⟨own, others⟩ := contribute
    rw [← number] at placed
    rw [outputShares, List.flatten_cons, List.map_append, own.inside_eq placed] at split
    rw [listedFor, List.flatMap_cons]
    -- the line is written for the first line of the source or for a later one
    rcases List.append_eq_append_iff.mp split with ⟨between, rfl, tail⟩ | ⟨between, head, tail⟩
    · obtain ⟨entry, target, governed⟩ := ih others tail
      exact ⟨entry, target, governed.behind own number placed⟩
    · cases between with
      | nil =>
        have later : _ = [] ++ line :: after := tail.symm
        obtain ⟨entry, target, governed⟩ := ih others later
        rw [List.append_nil] at head
        rw [← head, ← List.append_nil (List.map _ _)]
        exact ⟨entry, target, governed.behind own number placed⟩
      | cons first between =>
        cases tail
        exact Governed.of_contributes own number placed head indented

end

namespace Run

variable {settings : Settings} {file : Text} {lines : List Text}

/-- The directives of the output are those of the source without adjacent repetitions, so that no
directive of the output repeats the one before. The directive nearest in front of an indented line
names the section in which the line of the source stands that it is written for. -/
theorem directives_collapse {output : List Text}
    (returned : (Run.ofLines settings file lines).result = .ok output) :
    output.filter isDirectiveLine =
      ((lines.filterMap Source.directive?).destutter (· ≠ ·)).map Section.directive ∧
    (output.filter isDirectiveLine).IsChain (· ≠ ·) ∧
    ∀ before line after, output = before ++ line :: after → isIndented line = true →
      ∃ entry front raw back target,
        ((Run.ofLines settings file lines).listing.flatMap
          ListingEntry.owned)[before.countP isIndented]? = some (entry, line) ∧
        lines = front ++ raw :: back ∧ entry.number = front.length + 1 ∧
        entry.source = Source.stripped raw ∧
        Source.sectionAfterAll none front = some target ∧
        (before.filter isDirectiveLine).getLast? = some target.directive := by
  obtain ⟨outcome, rfl⟩ := outcome_of_result returned
  obtain ⟨placements, finish, assembled⟩ := assembled_of_outcome outcome
  obtain ⟨written, listing⟩ := shares_of_outcome outcome
  rw [assembled.placements_eq] at written listing
  have directives : (Run.ofLines settings file lines).outputLines.filter isDirectiveLine =
      ((lines.filterMap Source.directive?).destutter (· ≠ ·)).map Section.directive := by
    rw [outputLines, written, directives_outputShares assembled.contribute,
      assembled.laid.directives_eq, Section.collapse_none]
  refine ⟨directives, ?_, ?_⟩
  · rw [directives, List.isChain_map]
    exact (List.isChain_destutter _ _).imp fun _ _ other => Section.directive_injective.ne other
  · intro before line after split indented
    rw [outputLines, written] at split
    obtain ⟨entry, target, owned, ⟨front, raw, back, whole, number, source, inside⟩, nearest⟩ :=
      assembled.laid.exists_governed assembled.contribute split indented
    refine ⟨entry, front, raw, back, target, listing ▸ owned, whole, ?_, source, inside, ?_⟩
    · rw [number, Nat.add_comm]
      rfl
    · -- nothing is written in front of the first line
      simpa [nearestDirective, Settings.start] using nearest

/-- Three times `.code` with a comment and a label in between is written once, and the empty data
section behind them is kept. -/
theorem directives_collapse_repeated :
    let lines : List Text := [".data", ".code", "clr r1", ".code ; again", ":HERE", "\t.code",
      "clr r2", ".data", ".code", "clr r3", ".data", "7"]
    let run := Run.ofLines { keepLabels := true } "demo" lines
    let before : List Text := [".data", ".code", "\txor r1, r1, r1", "HERE:"]
    let output := before ++ ([("\txor r2, r2, r2" : Text), ".data", ".code", "\txor r3, r3, r3",
      ".data", "\t7"] : List Text)
    run.result = .ok output ∧
      lines.filterMap Source.directive? = [.data, .code, .code, .code, .data, .code, .data] ∧
      output.filter isDirectiveLine =
        ([Section.data, .code, .data, .code, .data].map Section.directive) ∧
      ∃ entry target, (run.listing.flatMap ListingEntry.owned)[1]? =
          some (entry, ("\txor r2, r2, r2" : Text)) ∧
        (before.filter isDirectiveLine).getLast? = some (Section.directive target) := by
  intro lines run before output
  have returned : run.result = .ok output := by rfl
  obtain ⟨directives, -, nearest⟩ := directives_collapse returned
  obtain ⟨entry, -, -, -, target, owned, -, -, -, -, named⟩ :=
    nearest before "\txor r2, r2, r2" _ rfl rfl
  exact ⟨returned, by decide +kernel, directives, entry, target, owned, named⟩

end Run

end TwoPass
