import Mathlib.Logic.Relation
import TwoPass.Proofs.Place

/-! The layout of a source text does not matter.

Source texts with the same meanings in the same order are placed alike, but for lines that mean
nothing: those take no space, bind no label and write nothing. So both have the same table, and each
line is written as its counterpart is. -/

set_option autoImplicit false

namespace TwoPass

namespace Line

variable {line other : Line}

theorem content_of_meaning (same : other.meaning = line.meaning) (content : line.body = .content) :
    other.body = .content ∧ other.text = line.text := by
  unfold meaning at same
  rw [content] at same
  cases body : other.body <;> simp_all

theorem isFatal_of_read {raw file : Text} {number : Int} {found : Problem}
    (failed : Line.read raw file number = .error found) : found.isFatal = true := by
  rw [Problem.isFatal, Problem.severity, decide_eq_true_eq]
  rcases fault_of_read failed with ⟨word, told⟩ | ⟨cause, told⟩ <;> rw [told] <;> rfl

theorem sectionAfter_of_meaning (same : other.meaning = line.meaning) (inside : Option Section) :
    other.sectionAfter inside = line.sectionAfter inside := by
  unfold meaning at same
  unfold sectionAfter
  cases body : line.body <;> cases bodyOther : other.body <;> simp_all

end Line

structure Placement.Alike (placement other : Placement) : Prop where
  address : other.address = placement.address
  entry : placement.entry.Alike other.entry

def Placement.Idle (placement : Placement) : Prop :=
  ∃ line, placement.entry = .passive line ∧ line.meaning = .nothing

theorem Entry.Alike.size_eq {entry other : Entry} (alike : entry.Alike other) :
    other.size = entry.size := by
  cases alike <;> rfl

theorem Placed.exists_alike {file raw other : Text} {number : Nat} {inside after : Option Section}
    {entry : Entry} (placed : Placed file number inside raw after entry)
    (same : Source.meaning? other = Source.meaning? raw)
    (accepted : ∀ line found, entry = .rejected line found → found.isFatal = false)
    (otherNumber : Nat) :
    ∃ entry', Placed file otherNumber inside other after entry' ∧ entry.Alike entry' := by
  have counterpart {line : Line} (read : Line.read raw file number = .ok line) :
      ∃ line', Line.read other file otherNumber = .ok line' ∧ line'.meaning = line.meaning :=
    Source.exists_read (same.trans (Source.meaning?_of_read read)) file otherNumber
  cases placed with
  | @unread found failed =>
    -- a line that cannot be read has a fatal problem
    have harmless := accepted none found rfl
    cases harmless.symm.trans (Line.isFatal_of_read failed)
  | @passive line read otherBody =>
    obtain ⟨line', read', means⟩ := counterpart read
    have passive : line'.body ≠ .content :=
      fun content => otherBody (Line.content_of_meaning means.symm content).1
    rw [← Line.sectionAfter_of_meaning means]
    exact ⟨.passive line', .passive read' passive, .passive means⟩
  | @stray line read content outside =>
    obtain ⟨line', read', means⟩ := counterpart read
    exact ⟨.stray line', .stray read' (Line.content_of_meaning means content).1 outside, .stray⟩
  | @item line read content data =>
    obtain ⟨line', read', means⟩ := counterpart read
    obtain ⟨content', text⟩ := Line.content_of_meaning means content
    exact ⟨.item line', .item read' content' data, .item text⟩
  | @refused line found read content code failed =>
    obtain ⟨line', read', means⟩ := counterpart read
    obtain ⟨content', text⟩ := Line.content_of_meaning means content
    obtain ⟨failure, failed', alike⟩ := (Entry.ofCode_agree text content content').exists_error failed
    obtain ⟨reason, rfl, blamed⟩ : ∃ reason, failure = .problem reason ∧ found.Alike reason := by
      cases alike with
      | problem alike => exact ⟨_, rfl, alike⟩
      | refl => exact ⟨found, rfl, rfl⟩
    exact ⟨.rejected (some line') reason, .refused read' content' code failed', .rejected blamed⟩
  | @code line statement instruction shape read code valid =>
    obtain ⟨line', read', means⟩ := counterpart read
    obtain ⟨content', text⟩ := Line.content_of_meaning means valid.content
    exact ⟨.code { statement with line := line' } instruction shape,
      .code read' code (valid.relocated text content'), .code (text.trans valid.text_eq.symm)⟩

theorem Placed.exists_idle {file raw : Text} (idle : Source.meaning? raw = some .nothing)
    (number : Nat) (inside : Option Section) :
    ∃ line, Placed file number inside raw inside (.passive line) ∧ line.meaning = .nothing := by
  obtain ⟨line, read, means⟩ := Source.exists_read idle file number
  have passive : line.body ≠ .content := by
    intro content
    rw [Line.meaning, content] at means
    cases means
  have stays : line.sectionAfter inside = inside := by
    unfold Line.meaning at means
    unfold Line.sectionAfter
    cases body : line.body <;> simp_all
  have placed : Placed file number inside raw (line.sectionAfter inside) (.passive line) :=
    .passive read passive
  rw [stays] at placed
  exact ⟨line, placed, means⟩

/-- Placements that are alike one by one, but for idle ones. -/
inductive Placement.Matched : List Placement → List Placement → Prop
  | nil : Matched [] []
  | cons {placement other : Placement} {rest others : List Placement} (alike : placement.Alike other)
    (matched : Matched rest others) : Matched (placement :: rest) (other :: others)
  | left {placement : Placement} {rest others : List Placement} (idle : placement.Idle)
    (matched : Matched rest others) : Matched (placement :: rest) others
  | right {other : Placement} {rest others : List Placement} (idle : other.Idle)
    (matched : Matched rest others) : Matched rest (other :: others)

theorem Laid.exists_matched {file : Text} {lines others : List Text} {start finish start' : Cursor}
    {placements : List Placement} (laid : Laid file start lines placements finish)
    (alike : Source.Alike lines others)
    (accepted : ∀ placement ∈ placements, ∀ line found, placement.entry = .rejected line found →
      found.isFatal = false)
    (inside : start'.inside = start.inside) (address : start'.address = start.address) :
    ∃ placements' finish', Laid file start' others placements' finish' ∧
      Placement.Matched placements placements' ∧ finish'.address = finish.address := by
  -- the two cursors agree in section and address; idle lines set their line numbers apart
  induction alike generalizing start start' placements with
  | nil =>
    cases laid
    exact ⟨[], start', .nil start', .nil, address⟩
  | @cons raw other rest others same alike ih =>
    cases laid with
    | @cons _ _ _ _ placement placements number own placed laid =>
      rw [List.forall_mem_cons] at accepted
      obtain ⟨entry, placed', entries⟩ := placed.exists_alike same accepted.1 start'.number
      rw [← inside] at placed'
      have size : entry.size = placement.entry.size := entries.size_eq
      obtain ⟨placements', finish', laid', matched, ended⟩ :=
        @ih placement.after
          (Placement.after ⟨start'.number, placement.inside, start'.address, entry⟩) placements laid
          accepted.2 rfl (by simp only [Placement.after, Placement.next]; omega)
      exact ⟨_ :: placements', finish', .cons rfl rfl placed' laid',
        .cons ⟨address.trans own.symm, entries⟩ matched, ended⟩
  | @left raw rest others idle alike ih =>
    cases laid with
    | @cons _ _ _ _ placement placements number own placed laid =>
      rw [List.forall_mem_cons] at accepted
      obtain ⟨line, passive, means⟩ := Placed.exists_idle idle start.number start.inside
      -- the line is placed already, so it is placed as an idle line
      obtain ⟨stays, entry⟩ := placed.unique passive
      have size : placement.entry.size = 0 := by rw [entry]; rfl
      obtain ⟨placements', finish', laid', matched, ended⟩ :=
        @ih placement.after start' placements laid accepted.2 (inside.trans stays.symm)
          (by simp only [Placement.after, Placement.next]; omega)
      exact ⟨placements', finish', laid', .left ⟨line, entry, means⟩ matched, ended⟩
  | @right other rest others idle alike ih =>
    obtain ⟨line, passive, means⟩ := @Placed.exists_idle file other idle start'.number start'.inside
    obtain ⟨placements', finish', laid', matched, ended⟩ :=
      @ih start (Placement.after ⟨start'.number, start'.inside, start'.address, .passive line⟩)
        placements laid accepted inside address
    exact ⟨_ :: placements', finish', .cons rfl rfl passive laid', .right ⟨line, rfl, means⟩ matched,
      ended⟩

def Symbol.unplaced (symbol : Symbol) : Symbol := { symbol with location := none }

namespace Placement

theorem Idle.symbol?_eq {placement : Placement} (idle : placement.Idle) : placement.symbol? = none := by
  obtain ⟨line, entry, means⟩ := idle
  simp only [symbol?, entry]
  unfold Line.meaning at means
  split
  · next name label =>
    rw [label] at means
    cases means
  · rfl

theorem Alike.symbol?_eq {placement other : Placement} (alike : placement.Alike other) :
    other.symbol?.map Symbol.unplaced = placement.symbol?.map Symbol.unplaced := by
  obtain ⟨number, after, address, entry⟩ := placement
  obtain ⟨number', after', address', entry'⟩ := other
  obtain ⟨same, entries⟩ := alike
  dsimp only at same entries
  subst same
  cases entries with
  | @passive line line' means =>
    unfold Line.meaning at means
    simp only [symbol?]
    cases body : line.body <;> cases bodyOther : line'.body <;> simp_all [Symbol.unplaced]
  | _ => rfl

theorem Matched.symbols_eq {placements others : List Placement} (matched : Matched placements others) :
    (others.filterMap symbol?).map Symbol.unplaced =
      (placements.filterMap symbol?).map Symbol.unplaced := by
  rw [List.map_filterMap, List.map_filterMap]
  induction matched with
  | nil => rfl
  | cons alike _ ih => rw [List.filterMap_cons, List.filterMap_cons, alike.symbol?_eq, ih]
  | left idle _ ih => rw [ih, List.filterMap_cons, idle.symbol?_eq, Option.map_none]
  | right idle _ ih => rw [List.filterMap_cons, idle.symbol?_eq, Option.map_none, ih]

theorem bindings_table (placements : List Placement) : (table placements).bindings =
    (SymbolTable.insertAll [] ((placements.filterMap symbol?).map Symbol.unplaced)).map
      fun symbol => (symbol.name, symbol.address) := by
  have mapped := @SymbolTable.insertAll_map Symbol.unplaced (fun _ => rfl) []
    (placements.filterMap symbol?)
  rw [List.map_nil] at mapped
  rw [mapped, List.map_map]
  rfl

theorem Matched.bindings_eq {placements others : List Placement} (matched : Matched placements others) :
    (table others).bindings = (table placements).bindings := by
  rw [bindings_table, bindings_table, matched.symbols_eq]

end Placement

namespace Placement

variable {settings : Settings} {table otherTable : SymbolTable}

theorem Idle.ofPlacement_eq {placement : Placement} (idle : placement.Idle) :
    Emission.ofPlacement settings table placement = .ok .nothing := by
  obtain ⟨line, entry, means⟩ := idle
  simp only [Emission.ofPlacement, entry]
  unfold Line.meaning at means
  cases body : line.body <;> simp_all

theorem Alike.ofPlacement_agree {placement other : Placement} (alike : placement.Alike other)
    (same : otherTable.bindings = table.bindings) :
    Agree Failure.Alike Emission.Alike (Emission.ofPlacement settings table placement)
      (Emission.ofPlacement settings otherTable other) := by
  obtain ⟨number, after, address, entry⟩ := placement
  obtain ⟨number', after', address', entry'⟩ := other
  obtain ⟨equal, entries⟩ := alike
  dsimp only at equal entries
  subst equal
  cases entries with
  | @rejected line line' found reason blamed =>
    have fatal : reason.isFatal = found.isFatal := by
      rw [Problem.isFatal, Problem.isFatal, Problem.severity, Problem.severity, blamed]
    simp only [Emission.ofPlacement, fatal]
    split
    · exact .error (.problem blamed)
    · exact .ok (.refl _)
  | @passive line line' means =>
    have equal : Emission.ofPlacement settings otherTable ⟨number', after', address', .passive line'⟩ =
        Emission.ofPlacement settings table ⟨number, after, address', .passive line⟩ := by
      unfold Line.meaning at means
      simp only [Emission.ofPlacement]
      cases body : line.body <;> cases bodyOther : line'.body <;> simp_all
    rw [equal]
    cases Emission.ofPlacement settings table ⟨number, after, address', .passive line⟩ with
    | ok emission => exact .ok (.refl emission)
    | error failure => exact .error (.refl failure)
  | stray => exact .ok (.refl _)
  | item text => exact Emission.ofItem_agree same text
  | code text => exact Emission.ofCode_agree same address' text _ _

theorem Alike.emission {placement other : Placement} (alike : placement.Alike other)
    (same : otherTable.bindings = table.bindings) :
    (placement.emission settings table).Alike (other.emission settings otherTable) := by
  have agree := @Alike.ofPlacement_agree settings table otherTable placement other alike same
  unfold Placement.emission
  generalize Emission.ofPlacement settings table placement = first at agree
  generalize Emission.ofPlacement settings otherTable other = second at agree
  cases agree with
  | ok emissions => exact emissions
  | error _ => exact .refl _

variable {placements others : List Placement}

/-- Idle placements have no share in the output, and the others have the same. -/
theorem Matched.shares_eq (matched : Matched placements others)
    (same : otherTable.bindings = table.bindings) (written : Option Section) :
    (outputShares settings otherTable written others).flatten =
      (outputShares settings table written placements).flatten := by
  induction matched generalizing written with
  | nil => rfl
  | cons alike _ ih =>
    have emissions := @Alike.emission settings table otherTable _ _ alike same
    rw [outputShares, outputShares, List.flatten_cons, List.flatten_cons, emissions.outputLines,
      emissions.sectionAfter, ih]
  | left idle _ ih =>
    rw [outputShares, emission_of_ok idle.ofPlacement_eq, List.flatten_cons, ih]
    rfl
  | right idle _ ih =>
    rw [outputShares, emission_of_ok idle.ofPlacement_eq, List.flatten_cons]
    exact ih written

theorem Alike.sound {placement other : Placement} (alike : placement.Alike other)
    (sound : placement.Sound) : other.Sound where
  accepted line reason entry := by
    have entries := alike.entry
    rw [entry] at entries
    generalize own : placement.entry = first at entries
    cases entries with
    | rejected blamed =>
      have harmless := sound.accepted _ _ own
      rw [Problem.isFatal, Problem.severity] at harmless ⊢
      rw [blamed]
      exact harmless
  addressed symbol made := by
    have symbols := alike.symbol?_eq
    rw [made, Option.map_some] at symbols
    obtain ⟨own, found, equal⟩ := Option.map_eq_some_iff.mp symbols.symm
    simp only [Symbol.unplaced, Symbol.mk.injEq] at equal
    rw [← equal.2.1]
    exact sound.addressed own found

theorem Idle.sound {placement : Placement} (idle : placement.Idle) : placement.Sound where
  accepted line found entry := by
    obtain ⟨own, passive, -⟩ := idle
    rw [passive] at entry
    cases entry
  addressed symbol made := by
    rw [idle.symbol?_eq] at made
    cases made

theorem Matched.sound (matched : Matched placements others)
    (sound : ∀ placement ∈ placements, placement.Sound) : ∀ other ∈ others, other.Sound := by
  induction matched with
  | nil => exact sound
  | cons alike _ ih =>
    rw [List.forall_mem_cons] at sound ⊢
    exact ⟨alike.sound sound.1, ih sound.2⟩
  | left idle _ ih =>
    rw [List.forall_mem_cons] at sound
    exact ih sound.2
  | right idle _ ih => exact List.forall_mem_cons.mpr ⟨idle.sound, ih sound⟩

theorem Matched.written (matched : Matched placements others)
    (same : otherTable.bindings = table.bindings)
    (written : ∀ placement ∈ placements, ∃ emission,
      Emission.ofPlacement settings table placement = .ok emission) :
    ∀ other ∈ others, ∃ emission, Emission.ofPlacement settings otherTable other = .ok emission := by
  induction matched with
  | nil => simp
  | cons alike _ ih =>
    rw [List.forall_mem_cons] at written ⊢
    obtain ⟨⟨emission, emits⟩, later⟩ := written
    obtain ⟨emission', emits', -⟩ := (alike.ofPlacement_agree same).exists_ok emits
    exact ⟨⟨emission', emits'⟩, ih later⟩
  | left idle _ ih =>
    rw [List.forall_mem_cons] at written
    exact ih written.2
  | right idle _ ih => exact List.forall_mem_cons.mpr ⟨⟨.nothing, idle.ofPlacement_eq⟩, ih written⟩

theorem Matched.writable (matched : Matched placements others)
    (writable : Writable settings placements) : Writable settings others where
  sound := matched.sound writable.sound
  written := matched.written matched.bindings_eq writable.written

end Placement

namespace Run

variable {settings : Settings} {file : Text} {lines others : List Text}

theorem assembled_alike (alike : Source.Alike lines others)
    (returned : (Run.ofLines settings file lines).outcome = .ok ()) :
    let run := Run.ofLines settings file lines
    let other := Run.ofLines settings file others
    other.outcome = .ok () ∧ other.output = run.output ∧
      other.symbols.bindings = run.symbols.bindings ∧ other.finish = run.finish := by
  intro run other
  obtain ⟨placements, finish, assembled⟩ := assembled_of_outcome returned
  obtain ⟨placements', finish', laid', matched, ended⟩ :=
    @Laid.exists_matched _ _ _ _ _ settings.start _ assembled.laid alike assembled.accepted rfl rfl
  obtain ⟨returned', assembled'⟩ := assembled_of_writable laid' (matched.writable assembled.writable)
  have symbols : run.symbols = Placement.table placements := assembled.table_eq
  have symbols' : other.symbols = Placement.table placements' := assembled'.table_eq
  have bindings : other.symbols.bindings = run.symbols.bindings := by
    rw [symbols, symbols']
    exact matched.bindings_eq
  refine ⟨returned', ?_, bindings, ?_⟩
  · rw [show other.output = _ from (shares_of_outcome returned').1,
      show run.output = _ from (shares_of_outcome returned).1, assembled'.placements_eq,
      assembled.placements_eq]
    exact matched.shares_eq bindings none
  · rw [show other.finish = finish'.address from assembled'.ended,
      show run.finish = finish.address from assembled.ended, ended]

/-- Blanks around lines, comments behind them, and blank lines and comments between them change neither
whether a program is assembled nor what it is assembled to: the output lines, the labels with their
addresses and their order, and the size stay the same. -/
theorem unchanged_by_layout (settings : Settings) (file : Text) {lines edited : List Text}
    (edits : Relation.ReflTransGen Source.Edit lines edited) :
    let run := Run.ofLines settings file lines
    let other := Run.ofLines settings file edited
    (other.outcome = .ok () ↔ run.outcome = .ok ()) ∧
      (run.outcome = .ok () → other.outputLines = run.outputLines ∧
        other.symbols.bindings = run.symbols.bindings ∧
        other.codeSize settings = run.codeSize settings) := by
  induction edits with
  | refl => exact ⟨Iff.rfl, fun _ => ⟨rfl, rfl, rfl⟩⟩
  | tail _ edit ih =>
    obtain ⟨returns, result⟩ := ih
    have alike := edit.alike
    -- an edit can be undone, so the edited program tells of the other one too
    refine ⟨Iff.trans ⟨fun returned => (assembled_alike alike.symm returned).1,
      fun returned => (assembled_alike alike returned).1⟩ returns, fun returned => ?_⟩
    obtain ⟨outputLines, bindings, size⟩ := result returned
    obtain ⟨-, output, sameBindings, finish⟩ := assembled_alike alike (returns.mpr returned)
    refine ⟨?_, sameBindings.trans bindings, ?_⟩
    · rw [← outputLines]
      exact congrArg (List.map OutputLine.render) output
    · rw [← size]
      exact congrArg (· - settings.base) finish

/-- A comment that is dropped, a line of blanks, a comment behind an instruction, an indented directive
and a data item with a line break. -/
theorem unchanged_by_layout_tidied :
    let lines : List Text := [".code", "; start", ":TOP", "ld r1, :TOP", ".data", "5 :TOP"]
    let edited : List Text := [".code", ":TOP", " \t", "ld r1, :TOP; 1 + 1", "\u3000.data", "5 :TOP\r\n"]
    let run := Run.ofLines {} "demo" lines
    let other := Run.ofLines {} "demo" edited
    Relation.ReflTransGen Source.Edit lines edited ∧ run.outcome = .ok () ∧ other.outcome = .ok () ∧
      other.outputLines = run.outputLines ∧
      other.symbols.bindings = ([("TOP", 4096)] : List (Text × Nat)) ∧ other.codeSize {} = 56 := by
  intro lines edited run other
  have dropped : Source.Edit lines [".code", ":TOP", "ld r1, :TOP", ".data", "5 :TOP"] :=
    .delete [".code"] (@Source.Idle.comment [] (by simp) " start") _
  have inserted : Source.Edit [".code", ":TOP", "ld r1, :TOP", ".data", "5 :TOP"]
      [".code", ":TOP", " \t", "ld r1, :TOP", ".data", "5 :TOP"] :=
    .insert [".code", ":TOP"] (.blank (List.all_eq_true.mp (by decide))) _
  have commented : Source.Edit [".code", ":TOP", " \t", "ld r1, :TOP", ".data", "5 :TOP"]
      [".code", ":TOP", " \t", "ld r1, :TOP; 1 + 1", ".data", "5 :TOP"] :=
    .comment [".code", ":TOP", " \t"] " 1 + 1" "ld r1, :TOP" _
  have indented : Source.Edit [".code", ":TOP", " \t", "ld r1, :TOP; 1 + 1", ".data", "5 :TOP"]
      [".code", ":TOP", " \t", "ld r1, :TOP; 1 + 1", "\u3000.data", "5 :TOP"] :=
    @Source.Edit.indent [".code", ":TOP", " \t", "ld r1, :TOP; 1 + 1"] "\u3000"
      (List.all_eq_true.mp (by decide)) ".data" _
  have trailed : Source.Edit [".code", ":TOP", " \t", "ld r1, :TOP; 1 + 1", "\u3000.data", "5 :TOP"]
      edited :=
    @Source.Edit.trail [".code", ":TOP", " \t", "ld r1, :TOP; 1 + 1", "\u3000.data"] "\r\n"
      (List.all_eq_true.mp (by decide)) "5 :TOP" []
  have edits : Relation.ReflTransGen Source.Edit lines edited :=
    ((((Relation.ReflTransGen.single dropped).tail inserted).tail commented).tail indented).tail trailed
  have returned : run.outcome = .ok () := by decide +kernel
  obtain ⟨returns, result⟩ := unchanged_by_layout {} "demo" edits
  obtain ⟨output, bindings, size⟩ := result returned
  refine ⟨edits, returned, returns.mpr returned, output, ?_, ?_⟩
  · rw [bindings]
    decide +kernel
  · rw [size]
    decide +kernel

end Run

end TwoPass
