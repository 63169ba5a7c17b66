import TwoPass.Proofs.DataItem
import TwoPass.Proofs.Extent
import TwoPass.Proofs.OutputLayout
import TwoPass.Proofs.Substitution

/-! Labels, their addresses and every reference to them.

A table holds the names of the label lines, each with the address of the last line that defines it.
All references are resolved against the finished table, so it does not matter whether they stand in
front of a definition, behind it or between two of them. -/

set_option autoImplicit false

namespace TwoPass

/-- How the references of a statement at address `pc` appear in the lines written for it. -/
structure Statement.ReferencesWritten (address? : Text → Option Nat) (pc : Nat)
    (statement : Statement) (shape : Shape) (texts : List Text) : Prop where
  /-- The target of a jump is replaced by its address. -/
  absolute : ∀ operand name, (Slot.address, operand) ∈ shape.zip statement.operands →
    operand.value = .label name → statement.mnemonic ≠ "ld" →
    ∃ gap address, (∀ c ∈ gap, Scan.isSpace c = true) ∧ address? name = some address ∧
      statement.text = statement.mnemonic ++ (gap ++ (":" ++ name)) ∧
      texts = [statement.mnemonic ++ (gap ++ Numeral.decimalNat address)]
  /-- The target of a relative branch is replaced by the distance to it. -/
  relative : ∀ operand name, (Slot.relative, operand) ∈ shape.zip statement.operands →
    operand.value = .label name →
    ∃ gap address displacement, (∀ c ∈ gap, Scan.isSpace c = true) ∧ address? name = some address ∧
      (pc : Int) + displacement = address ∧ -2048 ≤ displacement ∧ displacement ≤ 2047 ∧
      statement.text = statement.mnemonic ++ (gap ++ (":" ++ name)) ∧
      texts = [statement.mnemonic ++ (gap ++ Numeral.decimal displacement)]
  /-- A load of a label is written as the load of its address. -/
  loaded : ∀ index name, statement.mnemonic = "ld" →
    statement.operands.map Operand.value = [.register index, .label name] →
    ∃ address, address? name = some address ∧ ∀ file number, ∃ line load loadShape,
      Line.read ("ld r" ++ Numeral.decimalNat index ++ ", " ++ Numeral.decimalNat address) file number =
        .ok line ∧ Statement.read line = .ok load ∧ load.check = .ok loadShape ∧
      load.expand = .ok texts

namespace Statement

theorem writtenText_pair (mnemonic first second : Text) :
    writtenText mnemonic [first, second] = mnemonic ++ " " ++ first ++ ", " ++ second := by
  rw [writtenText, Operand.join_cons, Operand.tailText]
  simp

theorem values_of_placeless {operands : List Operand} {index : Nat} {value : Int}
    (denote : operands.map (·.value.placeless) = [.register index, .immediate value]) :
    operands.map Operand.value = [.register index, .immediate value] := by
  obtain ⟨target, rest, rfl, first, others⟩ := List.map_eq_cons_iff.mp denote
  obtain ⟨operand, rfl, second⟩ := List.map_eq_singleton_iff.mp others
  rw [List.map_cons, List.map_singleton, Operand.Value.eq_register_of_placeless first,
    Operand.Value.eq_immediate_of_placeless second]

theorem admits_load {index address : Nat} (small : index < Machine.registerCount)
    (addressed : address ≤ Machine.maxAddress) :
    Instruction.Admits ⟨"ld", [[.register, .unsigned64], [.register, .address]], .fixed48, some .load⟩
      [.register, .unsigned64] [.register index, .immediate address] := by
  have fits : Slot.unsigned64.Fits (.immediate address) := by
    intro range found
    cases found
    rw [Machine.maxAddress] at addressed
    rw [Range.contains_iff]
    dsimp only [unsigned64Range]
    omega
  refine ⟨rfl, ?_, ?_⟩
  · simp [Operand.Value.register?, small]
  · simpa [Slot.Fits] using fits

theorem expand_load {index address : Nat} (small : index < Machine.registerCount)
    (addressed : address ≤ Machine.maxAddress) (file : Text) (number : Int) :
    ∃ line load loadShape,
      Line.read ("ld r" ++ Numeral.decimalNat index ++ ", " ++ Numeral.decimalNat address) file number =
        .ok line ∧ Statement.read line = .ok load ∧ load.check = .ok loadShape ∧
      load.expand = .ok ((Expansion.load (Expansion.registerPart index).2 address).map
        InstructionText.render) := by
  have known : Instruction.find? "ld" =
      some ⟨"ld", [[.register, .unsigned64], [.register, .address]], .fixed48, some .load⟩ := rfl
  have spelledValue : (Operand.Value.immediate address).Spelled (Numeral.decimalNat address) :=
    .immediate (.ofNat (Numeral.short_of_le_maxAddress addressed))
  have spelled : ∀ part ∈ [Expansion.registerPart index,
      (.immediate address, Numeral.decimalNat address)], part.1.Spelled part.2 := by
    simp [Expansion.registerPart_spelled small, spelledValue]
  have text : "ld r" ++ Numeral.decimalNat index ++ ", " ++ Numeral.decimalNat address =
      writtenText "ld" [(Expansion.registerPart index).2, Numeral.decimalNat address] := by
    rw [writtenText_pair]
    rfl
  have content : Line.IsContent
      (writtenText "ld" [(Expansion.registerPart index).2, Numeral.decimalNat address]) := by
    refine isContent_written (by decide) (by simp) ?_
    exact List.forall_mem_map.mpr fun part member => (spelled part member).visible
  rw [text]
  generalize line : (⟨file, number, writtenText "ld" _, 0, writtenText "ld" _, .content⟩ : Line) = own
  obtain ⟨operands, load, denote⟩ := @read_written "ld" _ own (Instruction.mnemonic_spelled known)
    (by simp) spelled (by rw [← line]) (by rw [← line])
  have values := values_of_placeless denote
  refine ⟨own, _, [.register, .unsigned64], line ▸ Line.read_content content file number, load,
    ?_, ?_⟩
  · refine check_eq_ok_iff.mpr ⟨_, known, ?_⟩
    rw [values]
    exact admits_load small addressed
  · exact Expansion.expand_of_load rfl values small

variable {line : Line} {statement : Statement} {instruction : Instruction} {shape : Shape}
  {table : SymbolTable} {place : Nat} {texts : List Text}

theorem labelled_of_mem {slot : Slot} {operand : Operand} (labelled : slot.isLabel = true)
    (member : (slot, operand) ∈ shape.zip statement.operands) : shape.any Slot.isLabel = true :=
  List.any_eq_true.mpr ⟨slot, (List.of_mem_zip member).1, labelled⟩

theorem name_of_mem {slot : Slot} {operand : Operand} {name other : Text}
    (member : (slot, operand) ∈ shape.zip statement.operands) (label : operand.value = .label name)
    (values : statement.operands.map Operand.value = [.label other]) : other = name := by
  have inside : .label name ∈ statement.operands.map Operand.value :=
    List.mem_map.mpr ⟨operand, (List.of_mem_zip member).2, label⟩
  rw [values, List.mem_singleton] at inside
  cases inside
  rfl

namespace Rendered

theorem absolute_written (valid : Valid line statement instruction shape)
    (rendered : Rendered table place line statement instruction shape texts) {operand : Operand}
    {name : Text} (member : (Slot.address, operand) ∈ shape.zip statement.operands)
    (label : operand.value = .label name) (notLoad : statement.mnemonic ≠ "ld") :
    ∃ gap address, (∀ c ∈ gap, Scan.isSpace c = true) ∧ table.address? name = some address ∧
      statement.text = statement.mnemonic ++ (gap ++ (":" ++ name)) ∧
      texts = [statement.mnemonic ++ (gap ++ Numeral.decimalNat address)] := by
  cases rendered with
  | verbatim real unlabelled | expanded stands unlabelled =>
    cases unlabelled.symm.trans (labelled_of_mem rfl member)
  | absolute real jump values single bound =>
    cases name_of_mem member label values
    exact ⟨_, _, single.spaces, SymbolTable.address?_of_find? bound,
      valid.text_eq.trans single.whole, rfl⟩
  | relative => cases List.mem_singleton.mp (List.of_mem_zip member).1
  | loaded stands load => exact absurd load notLoad

theorem relative_written (valid : Valid line statement instruction shape)
    (rendered : Rendered table place line statement instruction shape texts) {operand : Operand}
    {name : Text} (member : (Slot.relative, operand) ∈ shape.zip statement.operands)
    (label : operand.value = .label name) :
    ∃ gap address displacement, (∀ c ∈ gap, Scan.isSpace c = true) ∧
      table.address? name = some address ∧ (place : Int) + displacement = address ∧
      -2048 ≤ displacement ∧ displacement ≤ 2047 ∧
      statement.text = statement.mnemonic ++ (gap ++ (":" ++ name)) ∧
      texts = [statement.mnemonic ++ (gap ++ Numeral.decimal displacement)] := by
  cases rendered with
  | verbatim real unlabelled | expanded stands unlabelled =>
    cases unlabelled.symm.trans (labelled_of_mem rfl member)
  | absolute => cases List.mem_singleton.mp (List.of_mem_zip member).1
  | relative real branch values single bound near =>
    cases name_of_mem member label values
    obtain ⟨low, high⟩ := Range.contains_iff.mp near
    exact ⟨_, _, _, single.spaces, SymbolTable.address?_of_find? bound, by omega, low, high,
      valid.text_eq.trans single.whole, rfl⟩
  | loaded => simpa using (List.of_mem_zip member).1

theorem loaded_written (valid : Valid line statement instruction shape)
    (addressed : ∀ name symbol, table.find? name = some symbol → symbol.address ≤ Machine.maxAddress)
    (rendered : Rendered table place line statement instruction shape texts) {index : Nat}
    {name : Text} (ld : statement.mnemonic = "ld")
    (operands : statement.operands.map Operand.value = [.register index, .label name]) :
    ∃ address, table.address? name = some address ∧ ∀ file number, ∃ line load loadShape,
      Line.read ("ld r" ++ Numeral.decimalNat index ++ ", " ++ Numeral.decimalNat address) file number =
        .ok line ∧ Statement.read line = .ok load ∧ load.check = .ok loadShape ∧
      load.expand = .ok texts := by
  have known := valid.known
  have shaped := valid.admits.shaped
  rw [ld] at known
  rw [operands] at shaped
  cases known
  cases shaped
  cases rendered with
  | verbatim real => cases real
  | expanded stands unlabelled => cases unlabelled
  | loaded stands load small values bound =>
    cases operands.symm.trans values
    exact ⟨_, SymbolTable.address?_of_find? bound, expand_load small (addressed _ _ bound)⟩

theorem references (valid : Valid line statement instruction shape)
    (addressed : ∀ name symbol, table.find? name = some symbol → symbol.address ≤ Machine.maxAddress)
    (rendered : Rendered table place line statement instruction shape texts) :
    ReferencesWritten table.address? place statement shape texts where
  absolute _ _ member label notLoad := rendered.absolute_written valid member label notLoad
  relative _ _ member label := rendered.relative_written valid member label
  loaded _ _ ld operands := rendered.loaded_written valid addressed ld operands

end Rendered

end Statement

namespace Run

variable {settings : Settings} {file : Text} {lines : List Text} {run : Run}
  {placements : List Placement} {finish : Cursor}

theorem Assembled.names_eq (assembled : Assembled settings file lines run placements finish) :
    run.symbols.names = (lines.filterMap Source.labelName?).eraseDups := by
  rw [assembled.symbols, SymbolTable.names, SymbolTable.map_name_insertAll, assembled.laid.names_eq]

/-- The last definition of a label is the one that counts. -/
theorem Assembled.address?_eq (assembled : Assembled settings file lines run placements finish)
    {before after : List Text} {raw name : Text} (whole : lines = before ++ raw :: after)
    (label : Source.labelName? raw = some name)
    (last : ∀ later ∈ after, Source.labelName? later ≠ some name) :
    run.symbols.address? name = some (settings.base + Source.extent none before) := by
  subst whole
  obtain ⟨earlier, symbol, later, split, rfl, address, others⟩ :=
    assembled.laid.last_symbol label last
  rw [assembled.symbols, split, SymbolTable.address?, SymbolTable.find?,
    SymbolTable.find?_insertAll_of_last others, Option.map_some, address]
  rfl

theorem Assembled.listed_at (assembled : Assembled settings file lines run placements finish)
    (strict : settings.allowUndefined = false) {before after : List Text} {raw : Text}
    {inside : Option Section} {entry : Entry} (whole : lines = before ++ raw :: after)
    (placed : Placed file (before.length + 1) (Source.sectionAfterAll none before) raw inside entry) :
    let placement : Placement :=
      ⟨before.length + 1, inside, settings.base + Source.extent none before, entry⟩
    ∃ emission, Emission.ofPlacement settings run.symbols placement = .ok emission ∧
      emission.told = [] ∧ ∀ listed ∈ emission.listed placement, listed ∈ run.listing := by
  subst whole
  obtain ⟨first, placement, last, cursor, rfl, ahead, number, address, found, -⟩ :=
    assembled.laid.split
  obtain ⟨emission, -, listed, -, -, others, emits, -, -, listing⟩ := assembled.emitted.split
  have silent := assembled.silent (.inl strict) placement (by simp) emission emits
  -- the layout of the lines in front tells where the line stands
  have reached : cursor = ⟨before.length + 1, Source.sectionAfterAll none before,
      settings.base + Source.extent none before⟩ := by
    rw [ahead.finish_eq, Nat.add_comm before.length 1]
    rfl
  rw [reached] at number address found
  obtain ⟨sameSection, sameEntry⟩ := found.unique placed
  obtain ⟨ownNumber, ownInside, ownAddress, ownEntry⟩ := placement
  cases number
  cases address
  cases sameSection
  cases sameEntry
  refine ⟨emission, emits, silent, fun entry member => ?_⟩
  rw [listing]
  exact List.mem_append_left _ (List.mem_append_right _ member)

/-- The table of a run that allows no undefined labels holds the names of the label lines in the
order of their first definitions, each with the address of its last definition; the indented lines of
the output are those of the listing; and the listing has every data item and every valid statement at
its address, with all its references resolved against the table. -/
theorem labels_and_references {settings : Settings} {file : Text} {lines output : List Text}
    (strict : settings.allowUndefined = false)
    (returned : (Run.ofLines settings file lines).result = .ok output) :
    let run := Run.ofLines settings file lines
    run.symbols.names = (lines.filterMap Source.labelName?).eraseDups ∧
    (∀ before raw after name, lines = before ++ raw :: after → Source.labelName? raw = some name →
      (∀ later ∈ after, Source.labelName? later ≠ some name) →
      run.symbols.address? name = some (settings.base + Source.extent none before)) ∧
    output.filterMap OutputReader.indented? = run.listing.flatMap ListingEntry.written ∧
    ∀ before raw after line, lines = before ++ raw :: after →
      Line.read raw file (before.length + 1 : Nat) = .ok line → line.body = .content →
      let pc := settings.base + Source.extent none before
      (Source.sectionAfterAll none before = some .data →
        ∃ text, ⟨pc, before.length + 1, line.text, [text]⟩ ∈ run.listing ∧
          line.DataWritten run.symbols.address? text) ∧
      (Source.sectionAfterAll none before = some .code → ∀ statement shape,
        Statement.read line = .ok statement → statement.check = .ok shape →
        ∃ texts, ⟨pc, before.length + 1, line.text, texts⟩ ∈ run.listing ∧
          statement.ReferencesWritten run.symbols.address? pc shape texts) := by
  obtain ⟨outcome, rfl⟩ := outcome_of_result returned
  obtain ⟨placements, finish, assembled⟩ := assembled_of_outcome outcome
  have transcribed := assembled.transcribed (.inl strict)
  refine ⟨assembled.names_eq, fun before raw after name whole label last =>
    assembled.address?_eq whole label last, transcribed.indented_eq, ?_⟩
  intro before raw after line whole read content
  refine ⟨fun data => ?_, fun code statement shape statementRead check => ?_⟩
  · obtain ⟨emission, emits, silent, listed⟩ :=
      assembled.listed_at strict whole (.item read content data)
    obtain ⟨text, resolved, rfl⟩ := Emission.ofItem_eq_ok emits silent
    exact ⟨text, listed _ List.mem_cons_self, Line.dataWritten_of_resolveData resolved⟩
  · obtain ⟨instruction, known, -⟩ := Statement.check_eq_ok_iff.mp check
    have valid : Statement.Valid line statement instruction shape :=
      ⟨content, statementRead, known, check⟩
    obtain ⟨emission, emits, silent, listed⟩ :=
      assembled.listed_at strict whole (.code read code valid)
    obtain ⟨texts, writes, rfl⟩ := Emission.ofCode_eq_ok valid emits silent
    have rendered := writes.rendered (Line.isContent_of_read read content) valid
    refine ⟨texts, listed _ List.mem_cons_self, rendered.references valid ?_⟩
    exact fun name symbol bound => assembled.address_le bound

/-- A branch between two definitions of its label, with a refused pseudo-instruction in front. -/
theorem labels_and_references_redefined :
    let lines : List Text := ["ignored", ".code", ":TOP", "ld r1, :END", "in r1", "brr :TOP", ":TOP",
      "br :END", ".data", "42 :TOP", ":END", "7"]
    let run := Run.ofLines {} "demo" lines
    let item : Line := ⟨"demo", 10, "42 :TOP", 0, "42 :TOP", .content⟩
    let branch : Line := ⟨"demo", 6, "brr :TOP", 0, "brr :TOP", .content⟩
    let statement : Statement := ⟨"brr", [⟨.label "TOP", ":TOP", 4, 8, false⟩], branch⟩
    run.result = .ok run.outputLines ∧
    run.symbols.names = (["TOP", "END"] : List Text) ∧
    run.symbols.address? "TOP" = some 0x1034 ∧
    (∃ text, ⟨0x1038, 10, "42 :TOP", [text]⟩ ∈ run.listing ∧
      item.DataWritten run.symbols.address? text) ∧
    ∃ texts, ⟨0x1030, 6, "brr :TOP", texts⟩ ∈ run.listing ∧
      statement.ReferencesWritten run.symbols.address? 0x1030 [.relative] texts := by
  intro lines run item branch statement
  have returned : run.result = .ok run.outputLines := by rfl
  obtain ⟨names, last, -, written⟩ :=
    labels_and_references (show Settings.allowUndefined {} = false from rfl) returned
  refine ⟨returned, names.trans (by decide +kernel), ?_, ?_, ?_⟩
  · exact last (lines.take 6) ":TOP" (lines.drop 7) "TOP" rfl (by decide +kernel) (by decide +kernel)
  · exact (written (lines.take 9) "42 :TOP" (lines.drop 10) item rfl (by decide +kernel) rfl).1
      (by decide +kernel)
  · exact (written (lines.take 5) "brr :TOP" (lines.drop 6) branch rfl (by decide +kernel) rfl).2
      (by decide +kernel) statement [.relative] (by decide +kernel) (by decide +kernel)

end Run

end TwoPass
