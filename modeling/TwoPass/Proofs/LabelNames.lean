import TwoPass.Proofs.Reformatting
import TwoPass.Proofs.RenamedLine

/-! The names of labels do not matter.

A program with other label names is laid out at the same addresses, line by line. So its labels have
the addresses that they have under their old names, and each line is written as before. -/

set_option autoImplicit false

namespace TwoPass

namespace Renaming

theorem location_eq (rename : Renaming) (inside : Option Section) {raw file : Text} {number : Int}
    {line other : Line} (read : Line.read raw file number = .ok line)
    (read' : Line.read (rename.line inside raw) file number = .ok other) {name : Text}
    (label : line.body = .label name) : other.location 0 = line.location 0 := by
  have means : Source.meaning? raw = some (.label name) := by
    rw [Source.meaning?_of_read read, Line.meaning, label]
  obtain ⟨behind, behind', whole, renamed⟩ := @exists_label_line rename raw name means inside
  obtain ⟨file₁, number₁, -⟩ := Line.read_eq_ok_iff.mp read
  obtain ⟨file₂, number₂, -⟩ := Line.read_eq_ok_iff.mp read'
  rw [whole] at read
  rw [renamed] at read'
  have indent := Line.indent_of_read read (Source.takeWhile_blank raw) (by decide)
  have indent' := Line.indent_of_read read' (Source.takeWhile_blank raw) (by decide)
  rw [Line.location, Line.location, file₁, file₂, number₁, number₂, indent, indent']

inductive MatchesEntry (rename : Renaming) : Entry → Entry → Prop
  | rejected {line other : Option Line} {found reason : Problem} (harmless : reason.isFatal = false) :
    MatchesEntry rename (.rejected line found) (.rejected other reason)
  | passive {line other : Line} {inside : Option Section} (unwritten : line.body ≠ .content)
    (means : other.meaning = rename.meaning inside line.meaning)
    (located : ∀ name, line.body = .label name → other.location 0 = line.location 0) :
    MatchesEntry rename (.passive line) (.passive other)
  | stray {line other : Line} : MatchesEntry rename (.stray line) (.stray other)
  | item {line other : Line} (text : other.text = rename.item line.text) :
    MatchesEntry rename (.item line) (.item other)
  | code {line other : Line} {statement statement' : Statement} {instruction : Instruction}
    {shape : Shape} (matched : rename.MatchesCode line other)
    (valid : Statement.Valid line statement instruction shape)
    (valid' : Statement.Valid other statement' instruction shape)
    (denote : List.Forall₂ rename.MatchesOperand statement.operands statement'.operands) :
    MatchesEntry rename (.code statement instruction shape) (.code statement' instruction shape)

structure MatchesPlacement (rename : Renaming) (placement other : Placement) : Prop where
  address : other.address = placement.address
  entry : rename.MatchesEntry placement.entry other.entry

theorem MatchesEntry.size_eq {rename : Renaming} {entry other : Entry}
    (matched : rename.MatchesEntry entry other) : other.size = entry.size := by
  cases matched <;> rfl

end Renaming

theorem Placed.exists_renamed {file raw : Text} {number : Nat} {inside after : Option Section}
    {entry : Entry} (placed : Placed file number inside raw after entry)
    (accepted : ∀ line found, entry = .rejected line found → found.isFatal = false)
    (rename : Renaming) :
    ∃ entry', Placed file number inside (rename.line inside raw) after entry' ∧
      rename.MatchesEntry entry entry' := by
  have counterpart {line : Line} (read : Line.read raw file number = .ok line) :
      ∃ other, Line.read (rename.line inside raw) file number = .ok other ∧
        other.meaning = rename.meaning inside line.meaning :=
    Source.exists_read (Renaming.meaning?_line (Source.meaning?_of_read read) inside) file number
  have content {line : Line} (read : Line.read raw file number = .ok line)
      (isContent : line.body = .content) :
      ∃ other, Line.read (rename.line inside raw) file number = .ok other ∧
        other.body = .content ∧ other.text = rename.content inside line.text := by
    obtain ⟨other, read', means⟩ := counterpart read
    rw [Line.meaning_eq_content_iff.mpr ⟨isContent, rfl⟩] at means
    exact ⟨other, read', Line.meaning_eq_content_iff.mp means⟩
  cases placed with
  | @unread found failed =>
    -- a line that cannot be read would be fatal
    have harmless := accepted none found rfl
    cases harmless.symm.trans (Line.isFatal_of_read failed)
  | @passive line read otherBody =>
    obtain ⟨other, read', means⟩ := counterpart read
    have stays : other.sectionAfter inside = line.sectionAfter inside ∧ other.body ≠ .content := by
      unfold Line.meaning at means
      unfold Line.sectionAfter
      cases body : line.body <;> cases body' : other.body <;>
        simp_all [Renaming.meaning]
    rw [← stays.1]
    refine ⟨.passive other, .passive read' stays.2, .passive otherBody means fun name label => ?_⟩
    exact rename.location_eq inside read read' label
  | @stray line read isContent outside =>
    obtain ⟨other, read', isContent', -⟩ := content read isContent
    exact ⟨.stray other, .stray read' isContent' outside, .stray⟩
  | @item line read isContent data =>
    obtain ⟨other, read', isContent', text⟩ := content read isContent
    subst data
    exact ⟨.item other, .item read' isContent' rfl, .item text⟩
  | @refused line found read isContent code failed =>
    obtain ⟨other, read', isContent', text⟩ := content read isContent
    subst code
    have matched : rename.MatchesCode line other :=
      ⟨isContent, isContent', Line.isContent_of_read read isContent, text⟩
    obtain ⟨reason, failed', harmless⟩ := matched.exists_refused failed (accepted _ _ rfl)
    exact ⟨.rejected (some other) reason, .refused read' isContent' rfl failed', .rejected harmless⟩
  | @code line statement instruction shape read code valid =>
    obtain ⟨other, read', isContent', text⟩ := content read valid.content
    subst code
    have matched : rename.MatchesCode line other :=
      ⟨valid.content, isContent', Line.isContent_of_read read valid.content, text⟩
    obtain ⟨statement', valid', denote⟩ := matched.exists_valid valid
    exact ⟨.code statement' instruction shape, .code read' rfl valid',
      .code matched valid valid' denote⟩

/-- A program with other names is laid out at the same addresses. -/
theorem Laid.exists_renamed {file : Text} {lines : List Text} {start finish : Cursor}
    {placements : List Placement} (laid : Laid file start lines placements finish)
    (accepted : ∀ placement ∈ placements, ∀ line found, placement.entry = .rejected line found →
      found.isFatal = false) (rename : Renaming) :
    ∃ placements', Laid file start (rename.source start.inside lines) placements' finish ∧
      List.Forall₂ rename.MatchesPlacement placements placements' := by
  induction laid with
  | nil cursor => exact ⟨[], .nil cursor, .nil⟩
  | @cons cursor finish raw rest placement placements number address placed laid ih =>
    rw [List.forall_mem_cons] at accepted
    obtain ⟨entry, placed', matched⟩ := placed.exists_renamed accepted.1 rename
    obtain ⟨placements', laid', others⟩ := ih accepted.2
    -- the line takes as much space as before, so the next one has its old address
    have next : (⟨placement.number, placement.inside, placement.address, entry⟩ : Placement).after =
        placement.after := by
      simp only [Placement.after, Placement.next, matched.size_eq]
    rw [Renaming.source, ← placed.section_eq]
    exact ⟨⟨placement.number, placement.inside, placement.address, entry⟩ :: placements',
      .cons number address placed' (next ▸ laid'), .cons ⟨rfl, matched⟩ others⟩

namespace Renaming

variable {rename : Renaming} {placements others : List Placement}

theorem MatchesPlacement.symbol?_eq {placement other : Placement}
    (matched : rename.MatchesPlacement placement other) :
    other.symbol? = placement.symbol?.map rename.symbol := by
  obtain ⟨number, after, address, entry⟩ := placement
  obtain ⟨number', after', address', entry'⟩ := other
  obtain ⟨same, entries⟩ := matched
  dsimp only at same entries
  subst same
  cases entries with
  | @passive line other inside unwritten means located =>
    unfold Line.meaning at means
    simp only [Placement.symbol?]
    cases body : line.body <;> cases body' : other.body <;>
      simp_all [Renaming.meaning, Renaming.symbol]
  | _ => rfl

theorem table_eq (matched : List.Forall₂ rename.MatchesPlacement placements others) :
    Placement.table others = rename.table (Placement.table placements) := by
  have symbols : others.filterMap Placement.symbol? =
      (placements.filterMap Placement.symbol?).map rename.symbol := by
    rw [List.map_filterMap]
    induction matched with
    | nil => rfl
    | cons first _ ih => rw [List.filterMap_cons, List.filterMap_cons, first.symbol?_eq, ih]
  rw [Placement.table, symbols]
  exact congrArg (SymbolTable.mk · true)
    (@SymbolTable.insertAll_renamed rename.symbol rename.apply (fun _ => rfl) rename.injective []
      (placements.filterMap Placement.symbol?))

variable {settings : Settings} {table : SymbolTable}

theorem MatchesPlacement.exists_emission {placement other : Placement} {emission : Emission}
    (matched : rename.MatchesPlacement placement other) (nameless : settings.keepLabels = false)
    (strict : settings.allowUndefined = false)
    (emits : Emission.ofPlacement settings table placement = .ok emission) :
    ∃ emission', Emission.ofPlacement settings (rename.table table) other = .ok emission' ∧
      emission.Alike emission' := by
  have silent := Emission.told_of_strict strict emits
  obtain ⟨number, after, address, entry⟩ := placement
  obtain ⟨number', after', address', entry'⟩ := other
  obtain ⟨equal, entries⟩ := matched
  dsimp only at equal entries
  subst equal
  cases entries with
  | rejected harmless =>
    obtain ⟨-, rfl⟩ := Emission.ofPlacement_rejected rfl emits
    refine ⟨.nothing, ?_, .refl _⟩
    simp only [Emission.ofPlacement, harmless, Bool.false_eq_true, if_false]
  | @passive line other inside unwritten means located =>
    refine ⟨emission, ?_, .refl _⟩
    rw [← emits]
    unfold Line.meaning at means
    simp only [Emission.ofPlacement]
    cases body : line.body <;> cases body' : other.body <;>
      simp_all [Renaming.meaning]
  | stray => exact ⟨emission, emits, .refl _⟩
  | @item line other text =>
    obtain ⟨written, resolved, rfl⟩ := Emission.ofItem_eq_ok emits silent
    refine ⟨.lines other.text [written], ?_, fun _ => rfl, fun _ => rfl⟩
    simp only [Emission.ofPlacement, Emission.ofItem, resolveData_eq text resolved]
  | @code line other statement statement' instruction shape code valid valid' denote =>
    have told := @Emission.toldBy_ofCode settings table line statement instruction shape address' valid
    have emitted : Emission.ofCode settings table address' statement instruction shape =
      .ok emission := emits
    rw [emitted] at told
    -- nothing was told about the line, so its label is defined and in reach, also when renamed
    have near : statement.labelProblem? table shape address' = none := by
      simpa [Emission.toldBy, silent] using told
    obtain ⟨emission', emits', silent'⟩ := @Emission.exists_ofCode settings (rename.table table) other
      statement' instruction shape address' valid' (labelProblem?_eq_none denote near)
    obtain ⟨texts, writes, rfl⟩ := Emission.ofCode_eq_ok valid emitted silent
    obtain ⟨texts', writes', rfl⟩ := Emission.ofCode_eq_ok valid' emits' silent'
    have rendered := writes.rendered code.isContent valid
    have isContent : Line.IsContent other.text := by
      rw [code.text]
      exact isContent_code code.isContent
    have rendered' := writes'.rendered isContent valid'
    obtain rfl := rendered_eq code valid valid' denote rendered rendered'
    exact ⟨_, emits', fun _ => rfl, fun _ => rfl⟩

theorem MatchesPlacement.sound {placement other : Placement}
    (matched : rename.MatchesPlacement placement other) (sound : placement.Sound) : other.Sound where
  accepted line reason entry := by
    have entries := matched.entry
    rw [entry] at entries
    generalize placement.entry = own at entries
    cases entries with
    | rejected harmless => exact harmless
  addressed symbol made := by
    rw [matched.symbol?_eq, Option.map_eq_some_iff] at made
    obtain ⟨own, found, rfl⟩ := made
    exact sound.addressed own found

theorem shares_eq (matched : List.Forall₂ rename.MatchesPlacement placements others)
    (nameless : settings.keepLabels = false) (strict : settings.allowUndefined = false)
    (written : ∀ placement ∈ placements, ∃ emission,
      Emission.ofPlacement settings table placement = .ok emission) :
    (∀ other ∈ others, ∃ emission,
        Emission.ofPlacement settings (rename.table table) other = .ok emission) ∧
      ∀ inside, outputShares settings (rename.table table) inside others =
        outputShares settings table inside placements := by
  induction matched with
  | nil => exact ⟨fun other member => absurd member List.not_mem_nil, fun _ => rfl⟩
  | cons first _ ih =>
    rw [List.forall_mem_cons] at written ⊢
    obtain ⟨⟨emission, emits⟩, later⟩ := written
    obtain ⟨emission', emits', alike⟩ := first.exists_emission nameless strict emits
    obtain ⟨others, shares⟩ := ih later
    refine ⟨⟨⟨emission', emits'⟩, others⟩, fun inside => ?_⟩
    rw [outputShares, outputShares, Placement.emission_of_ok emits, Placement.emission_of_ok emits',
      alike.outputLines, alike.sectionAfter, shares]

theorem sound_of_matches (matched : List.Forall₂ rename.MatchesPlacement placements others)
    (sound : ∀ placement ∈ placements, placement.Sound) : ∀ other ∈ others, other.Sound := by
  induction matched with
  | nil => exact sound
  | cons first _ ih =>
    rw [List.forall_mem_cons] at sound ⊢
    exact ⟨first.sound sound.1, ih sound.2⟩

end Renaming

namespace Run

/-- Label names carry no meaning. A program that is assembled without label lines in its output and
without undefined labels is also assembled with its labels renamed by an injective map, to the same
output lines and the same size, and its labels are the same ones under their new names. -/
theorem label_names_meaningless (settings : Settings) (nameless : settings.keepLabels = false)
    (strict : settings.allowUndefined = false) (file : Text) (lines : List Text) (f : Label → Label)
    (injective : Function.Injective f)
    (returned : (Run.ofLines settings file lines).outcome = .ok ()) :
    let rename := Renaming.ofLabels f injective
    let run := Run.ofLines settings file lines
    let other := Run.ofLines settings file (rename.source none lines)
    other.outcome = .ok () ∧ other.outputLines = run.outputLines ∧
      other.codeSize settings = run.codeSize settings ∧ other.symbols = rename.table run.symbols := by
  intro rename run other
  obtain ⟨placements, finish, assembled⟩ := assembled_of_outcome returned
  obtain ⟨placements', laid', matched⟩ : ∃ placements',
      Laid file settings.start (rename.source none lines) placements' finish ∧
        List.Forall₂ rename.MatchesPlacement placements placements' :=
    assembled.laid.exists_renamed assembled.accepted rename
  have table := Renaming.table_eq matched
  have writable := assembled.writable
  obtain ⟨written, shares⟩ := Renaming.shares_eq matched nameless strict writable.written
  rw [← table] at written shares
  obtain ⟨returned', assembled'⟩ := assembled_of_writable laid'
    ⟨Renaming.sound_of_matches matched writable.sound, written⟩
  have output : other.output = run.output := by
    rw [show other.output = _ from (shares_of_outcome returned').1,
      show run.output = _ from (shares_of_outcome returned).1, assembled'.placements_eq,
      assembled.placements_eq, assembled'.table_eq, assembled.table_eq, shares none]
  have finished : other.finish = run.finish :=
    (show other.finish = finish.address from assembled'.ended).trans assembled.ended.symm
  refine ⟨returned', congrArg (List.map OutputLine.render) output,
    congrArg (· - settings.base) finished, ?_⟩
  rw [show other.symbols = _ from assembled'.table_eq, table,
    show run.symbols = _ from assembled.table_eq]

def branchLike (label : Label) : Label :=
  ⟨'b' :: label.1, by
    have named := Scan.isNameChar_of_mem_name label.2
    rw [Text.isName, Bool.and_eq_true, List.all_eq_true, List.forall_mem_cons]
    exact ⟨rfl, rfl, named⟩⟩

theorem branchLike_injective : Function.Injective branchLike := by
  intro first second same
  exact Subtype.ext (List.cons.inj (congrArg Subtype.val same)).2

/-- Labels that look like registers and become labels that look like branches. Two lines of code are
skipped, one of which cannot be scanned, and some colons of the data item begin no reference. -/
theorem label_names_meaningless_branches :
    let lines : List Text := [".code", " : r ; start", "ld r1, :r ; :r", "br :r1", "brr\t:rr",
      "push :r", "ld r1 @ :r", ":r1", ":rr", "halt", ".data", "7 ::r :r:r1 \u00e9:r :rr"]
    let renamed : List Text := [".code", " : br ; start", "ld r1, :br ; :r", "br :br1", "brr\t:brr",
      "push :br", "ld r1 @ :r", ":br1", ":brr", "halt", ".data", "7 ::r :br:r1 \u00e9:r :brr"]
    let run := Run.ofLines {} "demo" lines
    let other := Run.ofLines {} "demo" renamed
    (Renaming.ofLabels branchLike branchLike_injective).source none lines = renamed ∧
      run.outcome = .ok () ∧ other.outcome = .ok () ∧
      other.outputLines = run.outputLines ∧ other.codeSize {} = 68 ∧
      other.symbols.bindings = ([("br", 4096), ("br1", 4152), ("brr", 4152)] : List (Text × Nat)) := by
  intro lines renamed run other
  have returned : run.outcome = .ok () := by decide +kernel
  have source : (Renaming.ofLabels branchLike branchLike_injective).source none lines = renamed := by
    decide +kernel
  obtain ⟨returned', output, size, symbols⟩ :=
    label_names_meaningless {} rfl rfl "demo" lines branchLike branchLike_injective returned
  rw [source] at returned' output size symbols
  refine ⟨source, returned, returned', output, ?_, ?_⟩
  · rw [size]
    decide +kernel
  · rw [symbols]
    decide +kernel

end Run

end TwoPass
