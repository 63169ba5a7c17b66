import TwoPass.Proofs.Meaning
import TwoPass.Proofs.Permission
import TwoPass.Proofs.Session

/-! The listing beside the output.

What is written for a line goes to the output and to the listing in one step, so that the two agree
after every run, however it has ended. Entries come in the order of their lines, and only lines that
take up bytes have one, so that numbers and addresses both grow. -/

set_option autoImplicit false

namespace TwoPass

def isIndented (line : Text) : Bool := line.head? == some '\t'

def Source.stripped (raw : Text) : Text := Text.trim (Text.upTo ';' raw)

def ListingEntry.indented (entry : ListingEntry) : List Text := entry.written.map ('\t' :: ·)

def ListingEntry.content (entry : ListingEntry) : Nat × Nat × Text :=
  (entry.number, entry.address, entry.source)

def Placement.directive? (placement : Placement) : Option Section :=
  match placement.entry with
  | .passive line =>
    match line.body with
    | .directive target => some target
    | _ => none
  | _ => none

theorem Line.text_eq_stripped {raw file : Text} {number : Int} {line : Line}
    (read : Line.read raw file number = .ok line) (content : line.body = .content) :
    line.text = Source.stripped raw := by
  obtain ⟨-, -, -, -, -, text⟩ := Line.read_eq_ok_iff.mp read
  rw [if_pos content, Source.trim_withoutBreak, Text.trim,
    Text.trimRight_upTo_trimRight Source.isBlank_semicolon,
    ← Text.trimLeft_upTo Source.isBlank_semicolon] at text
  exact text

/-! ### What is written for a line -/

/-- Everything that can be written for a placed line. -/
inductive Placement.Contributes (placement : Placement) : Emission → Prop
  | nothing (undirected : placement.directive? = none) (unlisted : placement.content? = none) :
    Contributes placement .nothing
  | directive {target : Section} (directed : placement.directive? = some target)
    (unlisted : placement.content? = none) : Contributes placement (.directive target)
  | label {name : Text} (undirected : placement.directive? = none)
    (unlisted : placement.content? = none) (named : Text.isName name = true) :
    Contributes placement (.label name)
  | lines {text : Text} {texts : List Text} (undirected : placement.directive? = none)
    (content : placement.content? = some (placement.number, placement.address, text)) :
    Contributes placement (.lines text texts)
  | verbatim {text : Text} {found : Problem} (undirected : placement.directive? = none)
    (content : placement.content? = some (placement.number, placement.address, text)) :
    Contributes placement (.verbatim text found)

section
variable {settings : Settings} {table : SymbolTable} {file raw : Text} {inside : Option Section}
  {placement : Placement} {emission : Emission}

theorem Placement.contributes_of_ok
    (placed : Placed file placement.number inside raw placement.inside placement.entry)
    (emits : Emission.ofPlacement settings table placement = .ok emission) :
    placement.Contributes emission := by
  obtain ⟨number, after, address, entry⟩ := placement
  dsimp only at placed
  cases placed with
  | unread | refused =>
    obtain ⟨-, rfl⟩ := Emission.ofPlacement_rejected rfl emits
    exact .nothing rfl rfl
  | stray =>
    cases emits
    exact .nothing rfl rfl
  | @passive line read other =>
    cases body : line.body with
    | content => exact absurd body other
    | directive target =>
      simp only [Emission.ofPlacement, body, Except.ok.injEq] at emits
      subst emits
      exact .directive (by simp only [Placement.directive?, body]) rfl
    | label name =>
      have undirected : Placement.directive?
          ⟨number, line.sectionAfter inside, address, .passive line⟩ = none := by
        simp only [Placement.directive?, body]
      simp only [Emission.ofPlacement, body, Except.ok.injEq] at emits
      subst emits
      split
      · exact .label undirected rfl (Line.isName_of_read read body)
      · exact .nothing undirected rfl
    | blank | comment =>
      simp only [Emission.ofPlacement, body, Except.ok.injEq] at emits
      subst emits
      exact .nothing (by simp only [Placement.directive?, body]) rfl
  | @item line read content data =>
    cases Emission.ofContent_of_ofItem emits with
    | lines texts => exact .lines rfl rfl
    | verbatim allowed missing => exact .verbatim rfl rfl
  | @code line statement instruction shape read code valid =>
    cases Emission.ofContent_of_ofCode emits with
    | lines texts => exact .lines rfl rfl
    | verbatim allowed missing => exact .verbatim rfl rfl

theorem Placed.contributes (settings : Settings) (table : SymbolTable)
    (placed : Placed file placement.number inside raw placement.inside placement.entry) :
    placement.Contributes (placement.emission settings table) ∨
      placement.emission settings table = .nothing := by
  cases emits : Emission.ofPlacement settings table placement with
  | ok emission =>
    rw [Placement.emission_of_ok emits]
    exact .inl (Placement.contributes_of_ok placed emits)
  | error failure => exact .inr (Placement.emission_of_error emits)

/-- A line of content that can be written has an entry of its own, and no other line has one. -/
theorem Placement.Contributes.listed_eq (contributes : placement.Contributes emission) :
    (emission.listed placement).map ListingEntry.content = placement.content?.toList := by
  cases contributes with
  | nothing undirected unlisted | directive directed unlisted | label undirected unlisted =>
    rw [unlisted]
    rfl
  | lines undirected content | verbatim undirected content =>
    rw [content]
    rfl

theorem Placement.Contributes.indented_eq (contributes : placement.Contributes emission)
    (written : Option Section) :
    ((emission.outputLines written).map OutputLine.render).filter isIndented =
      (emission.listed placement).flatMap ListingEntry.indented := by
  cases contributes with
  | nothing => rfl
  | @directive target directed unlisted =>
    by_cases same : written = some target
    · simp [Emission.outputLines, same, Emission.listed]
    · simp [Emission.outputLines, same, Emission.listed, OutputLine.render, isIndented]
  | @label name undirected unlisted named =>
    have tab := OutputReader.head?_label_ne named (show Text.isNameStart '\t' = false by decide)
    simp [Emission.outputLines, Emission.listed, isIndented, tab]
  | lines =>
    simp [Emission.outputLines, Emission.listed, ListingEntry.indented, OutputLine.render,
      isIndented, Function.comp_def]
  | verbatim => rfl

end

/-! ### What is written for all lines -/

section
variable {settings : Settings} {table : SymbolTable} {file : Text} {placements : List Placement}

theorem indented_outputShares
    (placed : ∀ placement ∈ placements, ∃ inside raw,
      Placed file placement.number inside raw placement.inside placement.entry)
    (written : Option Section) :
    ((outputShares settings table written placements).flatten.map OutputLine.render).filter
        isIndented = (listedFor settings table placements).flatMap ListingEntry.indented := by
  induction placements generalizing written with
  | nil => rfl
  | cons placement rest ih =>
    rw [List.forall_mem_cons] at placed
    obtain ⟨⟨inside, raw, own⟩, others⟩ := placed
    have share : (((placement.emission settings table).outputLines written).map
        OutputLine.render).filter isIndented =
          ((placement.emission settings table).listed placement).flatMap ListingEntry.indented := by
      rcases own.contributes settings table with contributes | failed
      · exact contributes.indented_eq written
      · rw [failed]
        rfl
    rw [outputShares, List.flatten_cons, List.map_append, List.filter_append, share, ih others,
      listedFor, listedFor, List.flatMap_cons, List.flatMap_append]

theorem listedFor_sublist
    (placed : ∀ placement ∈ placements, ∃ inside raw,
      Placed file placement.number inside raw placement.inside placement.entry) :
    ((listedFor settings table placements).map ListingEntry.content).Sublist
      (placements.filterMap Placement.content?) := by
  induction placements with
  | nil => exact List.Sublist.refl _
  | cons placement rest ih =>
    rw [List.forall_mem_cons] at placed
    obtain ⟨⟨inside, raw, own⟩, others⟩ := placed
    have share : (((placement.emission settings table).listed placement).map
        ListingEntry.content).Sublist placement.content?.toList := by
      rcases own.contributes settings table with contributes | failed
      · rw [contributes.listed_eq]
      · rw [failed]
        exact List.nil_sublist _
    have split : (placement :: rest).filterMap Placement.content? =
        placement.content?.toList ++ rest.filterMap Placement.content? := by
      cases listed : placement.content? <;> simp [listed]
    rw [split, listedFor, List.flatMap_cons, List.map_append]
    exact share.append (ih others)

end

/-! ### Lines in their order -/

theorem Placed.stripped_of_content {file raw text : Text} {inside : Option Section}
    {placement : Placement} {number address : Nat}
    (placed : Placed file placement.number inside raw placement.inside placement.entry)
    (content : placement.content? = some (number, address, text)) :
    text = Source.stripped raw ∧ number = placement.number ∧ address = placement.address := by
  obtain ⟨ownNumber, after, ownAddress, entry⟩ := placement
  dsimp only at placed
  cases placed with
  | item read kind =>
    cases content
    exact ⟨Line.text_eq_stripped read kind, rfl, rfl⟩
  | code read code valid =>
    cases content
    exact ⟨valid.text_eq.trans (Line.text_eq_stripped read valid.content), rfl, rfl⟩
  | _ => cases content

theorem Placement.address_lt_next {placement : Placement} {content : Nat × Nat × Text}
    (listed : placement.content? = some content) : placement.address < placement.next := by
  obtain ⟨number, inside, address, entry⟩ := placement
  have positive : 0 < entry.size := by
    cases entry with
    | item line => exact Nat.succ_pos 7
    | code statement instruction shape =>
      simp only [Entry.size, Instruction.size]
      cases instruction.sizeClass <;> decide
    | _ => cases listed
  simp only [Placement.next]
  omega

theorem Placement.exists_content {placement : Placement} (sized : 0 < placement.entry.size) :
    ∃ text, placement.content? = some (placement.number, placement.address, text) := by
  obtain ⟨number, inside, address, entry⟩ := placement
  cases entry with
  | item line => exact ⟨line.text, rfl⟩
  | code statement instruction shape => exact ⟨statement.text, rfl⟩
  | _ => exact absurd sized (Nat.lt_irrefl 0)

namespace Laid

variable {file : Text} {start finish : Cursor} {lines : List Text} {placements : List Placement}

theorem split_at {first last : List Placement} {placement : Placement}
    (laid : Laid file start lines (first ++ placement :: last) finish) :
    ∃ (before : List Text) (raw : Text) (after : List Text) (cursor : Cursor),
      lines = before ++ raw :: after ∧ Laid file start before first cursor ∧
      placement.number = cursor.number ∧ placement.address = cursor.address ∧
      Placed file cursor.number cursor.inside raw placement.inside placement.entry := by
  induction first generalizing start lines with
  | nil =>
    cases laid with
    | cons number address placed tail =>
      exact ⟨[], _, _, start, rfl, .nil start, number, address, placed⟩
  | cons head first ih =>
    cases laid with
    | @cons _ _ own _ _ _ number address placed tail =>
      obtain ⟨before, raw, after, cursor, rfl, front, rest⟩ := ih tail
      exact ⟨own :: before, raw, after, cursor, rfl, .cons number address placed front, rest⟩

theorem exists_line (laid : Laid file start lines placements finish) :
    ∀ placement ∈ placements, ∃ before raw after, lines = before ++ raw :: after ∧
      placement.number = start.number + before.length ∧
      placement.address = start.address + Source.extent start.inside before ∧
      Placed file placement.number (Source.sectionAfterAll start.inside before) raw placement.inside
        placement.entry := by
  intro placement member
  obtain ⟨first, last, rfl⟩ := List.append_of_mem member
  obtain ⟨before, raw, after, cursor, rfl, front, number, address, placed⟩ := laid.split_at
  rw [front.finish_eq] at number address placed
  exact ⟨before, raw, after, rfl, number, address, number ▸ placed⟩

theorem pairwise (laid : Laid file start lines placements finish) :
    placements.Pairwise fun earlier later =>
      earlier.number < later.number ∧ earlier.next ≤ later.address := by
  induction laid with
  | nil cursor => exact List.Pairwise.nil
  | @cons cursor finish raw rest placement placements number address placed laid ih =>
    refine List.pairwise_cons.mpr ⟨fun later member => ?_, ih⟩
    obtain ⟨before, -, -, -, laterNumber, laterAddress, -⟩ := laid.exists_line later member
    simp only [Placement.after] at laterNumber laterAddress
    omega

theorem content_pairwise (laid : Laid file start lines placements finish) :
    (placements.filterMap Placement.content?).Pairwise fun earlier later =>
      earlier.1 < later.1 ∧ earlier.2.1 < later.2.1 := by
  refine List.pairwise_filterMap.mpr (laid.pairwise.imp_of_mem ?_)
  rintro first second firstMember secondMember ⟨numbers, addresses⟩ ⟨number, address, text⟩ listed
    ⟨laterNumber, laterAddress, laterText⟩ laterListed
  obtain ⟨inside, raw, placed⟩ := laid.placed_of_mem first firstMember
  obtain ⟨laterInside, laterRaw, laterPlaced⟩ := laid.placed_of_mem second secondMember
  obtain ⟨-, rfl, rfl⟩ := placed.stripped_of_content listed
  obtain ⟨-, rfl, rfl⟩ := laterPlaced.stripped_of_content laterListed
  -- content takes up bytes, so what stands behind it has a greater address
  have advances := Placement.address_lt_next listed
  dsimp only
  omega

end Laid

/-! ### Whole runs -/

namespace Run

variable {settings : Settings} {file : Text} {lines : List Text}

/-- However far a run has come, it has written and listed the shares of its first lines. -/
theorem exists_shares (settings : Settings) (file : Text) (lines : List Text) :
    let run := Run.ofLines settings file lines
    ∃ front, front <+: (Layout.ofLines settings.base file lines).placements ∧
      run.output = (outputShares settings run.symbols none front).flatten ∧
      run.listing = listedFor settings run.symbols front := by
  have emitting {placements : List Placement} {finish : Nat} {first : FirstPass}
      (collects : Collects settings file lines placements finish first) :
      let run := Run.ofLines settings file lines
      ∃ front, front <+: (Layout.ofLines settings.base file lines).placements ∧
        run.output = (outputShares settings run.symbols none front).flatten ∧
        run.listing = listedFor settings run.symbols front := by
    obtain ⟨front, rest, whole, output, listing, -⟩ := collects.shares
    refine ⟨front, ⟨rest, ?_⟩, output, listing⟩
    rw [collects.layout, whole]
  have went := course settings file lines
  generalize Run.ofLines settings file lines = run at went emitting
  cases went with
  | stopped | interrupted | rejected => exact ⟨[], List.nil_prefix, rfl, rfl⟩
  | halted collects | failed collects | returned collects => exact emitting collects

theorem exists_laid (settings : Settings) (file : Text) (lines : List Text) :
    ∃ front finish, front <+: lines ∧ Laid file settings.start front
      (Layout.ofLines settings.base file lines).placements finish :=
  Laid.of_layFrom file settings.start lines

theorem indented_output (settings : Settings) (file : Text) (lines : List Text) :
    (Run.ofLines settings file lines).outputLines.filter isIndented =
      (Run.ofLines settings file lines).listing.flatMap ListingEntry.indented := by
  obtain ⟨front, begins, output, listing⟩ := exists_shares settings file lines
  obtain ⟨read, finish, -, laid⟩ := exists_laid settings file lines
  rw [outputLines, output, listing]
  exact indented_outputShares
    (fun placement member => laid.placed_of_mem placement (begins.subset member)) none

theorem listing_sublist (settings : Settings) (file : Text) (lines : List Text) :
    ((Run.ofLines settings file lines).listing.map ListingEntry.content).Sublist
      ((Layout.ofLines settings.base file lines).placements.filterMap Placement.content?) := by
  obtain ⟨front, begins, -, listing⟩ := exists_shares settings file lines
  obtain ⟨read, finish, -, laid⟩ := exists_laid settings file lines
  have entries := @listedFor_sublist settings (Run.ofLines settings file lines).symbols file front
    fun placement member => laid.placed_of_mem placement (begins.subset member)
  rw [listing]
  exact entries.trans (begins.sublist.filterMap _)

theorem listing_pairwise (settings : Settings) (file : Text) (lines : List Text) :
    (Run.ofLines settings file lines).listing.Pairwise fun earlier later =>
      earlier.number < later.number ∧ earlier.address < later.address := by
  obtain ⟨read, finish, -, laid⟩ := exists_laid settings file lines
  have increasing := laid.content_pairwise.sublist (listing_sublist settings file lines)
  exact List.pairwise_map.mp increasing

theorem exists_line_of_entry {entry : ListingEntry}
    (member : entry ∈ (Run.ofLines settings file lines).listing) : ∃ before raw after,
      lines = before ++ raw :: after ∧ entry.number = before.length + 1 ∧
      entry.address = settings.base + Source.extent none before ∧
      entry.source = Source.stripped raw := by
  have listed := (listing_sublist settings file lines).subset (List.mem_map_of_mem member)
  obtain ⟨placement, inside, content⟩ := List.mem_filterMap.mp listed
  obtain ⟨read, finish, ⟨unread, rfl⟩, laid⟩ := exists_laid settings file lines
  obtain ⟨before, raw, rest, rfl, number, address, placed⟩ := laid.exists_line placement inside
  obtain ⟨source, sameNumber, sameAddress⟩ := placed.stripped_of_content content
  refine ⟨before, raw, rest ++ unread, by simp, ?_, ?_, source⟩
  · rw [sameNumber, number, Nat.add_comm]
    rfl
  · rw [sameAddress, address]
    rfl

theorem Assembled.contribute {run : Run} {placements : List Placement} {finish : Cursor}
    (assembled : Assembled settings file lines run placements finish) :
    ∀ placement ∈ placements, placement.Contributes (placement.emission settings run.symbols) := by
  intro placement member
  obtain ⟨emission, emits⟩ := assembled.writable.written placement member
  obtain ⟨inside, raw, placed⟩ := assembled.laid.placed_of_mem placement member
  rw [← assembled.table_eq] at emits
  rw [Placement.emission_of_ok emits]
  exact Placement.contributes_of_ok placed emits

theorem exists_entry_of_outcome (returned : (Run.ofLines settings file lines).outcome = .ok ())
    {before after : List Text} {raw : Text} (whole : lines = before ++ raw :: after)
    (sized : 0 < Source.lineSize (Source.sectionAfterAll none before) raw) :
    ∃ entry ∈ (Run.ofLines settings file lines).listing, entry.number = before.length + 1 := by
  subst whole
  obtain ⟨placements, finish, assembled⟩ := assembled_of_outcome returned
  obtain ⟨first, placement, last, cursor, whole, front, number, -, placed, -⟩ := assembled.laid.split
  have member : placement ∈ placements := whole ▸ List.mem_append_right _ List.mem_cons_self
  -- the line is content, since nothing else takes up bytes
  rw [front.finish_eq] at number placed
  obtain ⟨text, content⟩ := Placement.exists_content (sized.trans_eq placed.size_eq.symm)
  have listed := (assembled.contribute placement member).listed_eq
  rw [content, Option.toList_some] at listed
  obtain ⟨entry, only, same⟩ := List.map_eq_singleton_iff.mp listed
  refine ⟨entry, ?_, ?_⟩
  · rw [(shares_of_outcome returned).2, assembled.placements_eq]
    exact List.mem_flatMap.mpr ⟨placement, member, only ▸ List.mem_singleton_self entry⟩
  · have own : entry.number = placement.number := congrArg Prod.fst same
    rw [own, number, Nat.add_comm]
    rfl

end Run

namespace Session

/-- Listing and output are in step after every run, whether it has returned, has failed in either pass,
has reached the limit or has met a numeral that cannot be converted. The indented lines of the output
are those of the entries, in order; numbers and addresses grow from entry to entry; each entry has
the address and the text of its line; and a run that returns has listed every line that takes up bytes. -/
theorem listing_in_step (session : Session) (file : Text) (lines : List Text) :
    let run := (session.assembleLines file lines).run
    let base := session.settings.base
    run.outputLines.filter isIndented =
      run.listing.flatMap (fun entry => entry.written.map ('\t' :: ·)) ∧
    (run.listing.map ListingEntry.number).Pairwise (· < ·) ∧
    (run.listing.map ListingEntry.address).Pairwise (· < ·) ∧
    (∀ entry ∈ run.listing, ∃ before raw after, lines = before ++ raw :: after ∧
      entry.number = before.length + 1 ∧ entry.address = base + Source.extent none before ∧
      entry.source = Source.stripped raw) ∧
    (run.outcome = .ok () → ∀ before raw after, lines = before ++ raw :: after →
      0 < Source.lineSize (Source.sectionAfterAll none before) raw →
        ∃ entry ∈ run.listing, entry.number = before.length + 1) := by
  dsimp only
  rw [run_assembleLines]
  have grown := Run.listing_pairwise session.settings file lines
  refine ⟨Run.indented_output session.settings file lines, ?_, ?_,
    fun entry member => Run.exists_line_of_entry member, fun returned before raw after whole sized =>
      Run.exists_entry_of_outcome returned whole sized⟩
  · exact List.pairwise_map.mpr (grown.imp And.left)
  · exact List.pairwise_map.mpr (grown.imp And.right)

/-- A branch to nowhere stops the second pass behind a line and a label that have been written. With
undefined labels allowed the same lines are assembled. -/
theorem listing_in_step_stopped :
    let lines : List Text := ["ignored", ".code", "push r1 ; keep", ":HERE", "brr :AWAY", "halt"]
    let stopped := ((start { keepLabels := true, maxErrors := 1 }).assembleLines "demo" lines).run
    let allowed := ((start { allowUndefined := true }).assembleLines "demo" lines).run
    stopped.outcome = .error (.problem { fault := .tooManyErrors 1 }) ∧
      stopped.outputLines =
        ([".code", "\tsubi r31, 8", "\tmov (r31)(0), r1", "HERE:"] : List Text) ∧
      stopped.outputLines.filter isIndented =
        stopped.listing.flatMap (fun entry => entry.written.map ('\t' :: ·)) ∧
      allowed.outcome = .ok () ∧ (allowed.listing.map ListingEntry.number).Pairwise (· < ·) ∧
      ∃ entry ∈ allowed.listing, entry.number = 5 := by
  intro lines stopped allowed
  have returned : allowed.outcome = .ok () := by decide +kernel
  obtain ⟨inStep, -⟩ :=
    listing_in_step (start { keepLabels := true, maxErrors := 1 }) "demo" lines
  obtain ⟨-, increasing, -, -, complete⟩ :=
    listing_in_step (start { allowUndefined := true }) "demo" lines
  refine ⟨by decide +kernel, by decide +kernel, inStep, returned, increasing, ?_⟩
  exact complete returned (lines.take 4) "brr :AWAY" (lines.drop 5) rfl (by decide +kernel)

end Session

end TwoPass
