import TwoPass.Listing
import TwoPass.Output
import TwoPass.Progress

/-! A run of the assembler on the lines of a program.

The first pass goes through the layout and collects labels and problems. If none of the problems is
fatal, the second pass goes through the same layout and writes the output. Either pass stops when
the limit of fatal problems is reached. What a run has built up to its end stays readable, whatever
its outcome, until the next run clears it and begins with what is left. -/

set_option autoImplicit false

namespace TwoPass

structure FirstPass where
  symbols : SymbolTable
  journal : Journal
  deriving DecidableEq, Repr

namespace FirstPass

def reject (pass : FirstPass) (found : Problem) : FirstPass × Option Problem :=
  let (journal, stop) := pass.journal.add found
  ({ pass with journal }, stop)

/-- Binds the label of a line; the last definition of a label is the one that counts. -/
def defineLabel (pass : FirstPass) (line : Line) (name : Text) (address : Nat) :
    FirstPass × Option Problem :=
  let place := line.location 0
  match pass.symbols.define name address (some place) with
  | (.error found, symbols) => { pass with symbols }.reject found
  | (.ok earlier, symbols) =>
    let journal := match earlier with
      | some symbol =>
        pass.journal.warn (.labelRedefined name symbol.address symbol.location address) place
      | none => pass.journal
    ({ symbols, journal := journal.note (.labelPlaced name address) }, none)

def observe (pass : FirstPass) (placement : Placement) : FirstPass × Option Problem :=
  match placement.entry with
  | .rejected _ found => pass.reject found
  | .stray line =>
    ({ pass with journal := pass.journal.warn (.outsideSection line.text) (line.location 0) }, none)
  | .passive line =>
    match line.body with
    | .label name => pass.defineLabel line name placement.address
    | _ => (pass, none)
  | .item _ | .code .. => (pass, none)

def observeAll (pass : FirstPass) : List Placement → FirstPass × Option Problem
  | [] => (pass, none)
  | placement :: rest =>
    match pass.observe placement with
    | (pass, some stop) => (pass, some stop)
    | (pass, none) => pass.observeAll rest

theorem limit_observe (pass : FirstPass) (placement : Placement) :
    (pass.observe placement).1.journal.report.limit = pass.journal.report.limit := by
  unfold observe
  split
  · exact Journal.limit_add pass.journal _
  · rfl
  · split
    · unfold defineLabel
      dsimp only
      split
      · exact Journal.limit_add pass.journal _
      · split <;> rfl
    · rfl
  · rfl
  · rfl

theorem limit_observeAll (pass : FirstPass) (placements : List Placement) :
    (pass.observeAll placements).1.journal.report.limit = pass.journal.report.limit := by
  induction placements generalizing pass with
  | nil => rfl
  | cons placement rest ih =>
    have own := pass.limit_observe placement
    unfold observeAll
    split
    · next after stop observed =>
      rw [observed] at own
      exact own
    · next after observed =>
      rw [observed] at own
      rw [ih, own]

end FirstPass

structure SecondPass where
  journal : Journal
  output : List OutputLine
  listing : List ListingEntry
  written : Option Section
  deriving DecidableEq, Repr

namespace SecondPass

def writeLines (pass : SecondPass) (placement : Placement) (source : Text) (texts : List Text) :
    SecondPass :=
  { pass with
    output := pass.output ++ texts.map .indented
    listing := pass.listing ++ [⟨placement.address, placement.number, source, texts⟩] }

def reject (pass : SecondPass) (found : Problem) : SecondPass × Option Failure :=
  let (journal, stop) := pass.journal.add found
  ({ pass with journal }, stop.map .problem)

/-- Writes an emission. A directive is written only where the section changes. -/
def write (pass : SecondPass) (placement : Placement) : Emission → SecondPass × Option Failure
  | .nothing => (pass, none)
  | .directive target =>
    if pass.written = some target then (pass, none)
    else ({ pass with output := pass.output ++ [.directive target], written := some target }, none)
  | .label name => ({ pass with output := pass.output ++ [.label name] }, none)
  | .lines source texts => (pass.writeLines placement source texts, none)
  | .verbatim source found =>
    let (pass, stop) := pass.reject found
    (pass.writeLines placement source [source], stop)

def observe (settings : Settings) (table : SymbolTable) (pass : SecondPass) (placement : Placement) :
    SecondPass × Option Failure :=
  match Emission.ofPlacement settings table placement with
  | .ok emission => pass.write placement emission
  | .error (.problem found) => pass.reject found
  | .error failure => (pass, some failure)

def observeAll (settings : Settings) (table : SymbolTable) (pass : SecondPass) :
    List Placement → SecondPass × Option Failure
  | [] => (pass, none)
  | placement :: rest =>
    match observe settings table pass placement with
    | (pass, some stop) => (pass, some stop)
    | (pass, none) => observeAll settings table pass rest

theorem limit_write (pass : SecondPass) (placement : Placement) (emission : Emission) :
    (pass.write placement emission).1.journal.report.limit = pass.journal.report.limit := by
  unfold write
  split
  · rfl
  · split <;> rfl
  · rfl
  · rfl
  · exact Journal.limit_add pass.journal _

theorem limit_observe (settings : Settings) (table : SymbolTable) (pass : SecondPass)
    (placement : Placement) :
    (observe settings table pass placement).1.journal.report.limit = pass.journal.report.limit := by
  unfold observe
  split
  · exact pass.limit_write placement _
  · exact Journal.limit_add pass.journal _
  · rfl

theorem limit_observeAll (settings : Settings) (table : SymbolTable) (pass : SecondPass)
    (placements : List Placement) :
    (observeAll settings table pass placements).1.journal.report.limit =
      pass.journal.report.limit := by
  induction placements generalizing pass with
  | nil => rfl
  | cons placement rest ih =>
    have own := limit_observe settings table pass placement
    unfold observeAll
    split
    · next after stop observed =>
      rw [observed] at own
      exact own
    · next after observed =>
      rw [observed] at own
      rw [ih, own]

end SecondPass

/-- What a run leaves behind. `written` is the section of the last directive in the output, and
`finish` the address past the last byte, or the base address where the first pass did not come to
its end. -/
structure Run where
  symbols : SymbolTable
  journal : Journal
  output : List OutputLine
  listing : List ListingEntry
  written : Option Section
  finish : Nat
  outcome : Except Failure Unit

namespace Run

def initial (settings : Settings) : Run :=
  { symbols := {}
    journal := { report := { limit := settings.maxErrors } }
    output := []
    listing := []
    written := none
    finish := settings.base
    outcome := .ok () }

/-- Clears what an earlier run has left. Events and deliveries are told run by run, so they begin
anew. -/
def cleared (settings : Settings) (earlier : Run) : Run :=
  { symbols := earlier.symbols.clear
    journal := { report := { earlier.journal.report.clear with delivered := [] } }
    output := []
    listing := []
    written := none
    finish := settings.base
    outcome := .ok () }

/-- The second pass over a layout whose labels have been collected without a fatal problem. It goes
on from the output that `start` has. -/
def emit (settings : Settings) (start : Run) (file : Text) (placements : List Placement)
    (finish : Nat) (first : FirstPass) : Run :=
  let table := first.symbols.freeze
  let journal := (first.journal.note (.collected table.size finish)).note (.emitting file)
  let (second, stop) := SecondPass.observeAll settings table
    ⟨journal, start.output, start.listing, start.written⟩ placements
  let ending (journal : Journal) (outcome : Except Failure Unit) : Run :=
    ⟨table, journal, second.output, second.listing, second.written, finish, outcome⟩
  match stop with
  | some failure => ending second.journal (.error failure)
  | none =>
    if second.journal.report.hasFatal then
      ending second.journal (.error (.problem second.journal.report.failure))
    else ending (second.journal.note (.emitted second.output.length)) (.ok ())

def resume (settings : Settings) (start : Run) (file : Text) (lines : List Text) : Run :=
  let layout := Layout.ofLines settings.base file lines
  let (first, stop) := FirstPass.observeAll
    ⟨start.symbols, start.journal.note (.collecting file)⟩ layout.placements
  let ending (finish : Nat) (failure : Failure) : Run :=
    { start with
      symbols := first.symbols
      journal := first.journal
      finish
      outcome := .error failure }
  match stop, layout.finish with
  | some found, _ => ending start.finish (.problem found)
  | none, .error failure => ending start.finish failure
  | none, .ok finish =>
    if first.journal.report.hasFatal then ending finish (.problem first.journal.report.failure)
    else emit settings start file layout.placements finish first

def next (settings : Settings) (earlier : Run) (file : Text) (lines : List Text) : Run :=
  resume settings (earlier.cleared settings) file lines

def ofLines (settings : Settings) (file : Text) (lines : List Text) : Run :=
  next settings (initial settings) file lines

theorem limit_emit (settings : Settings) (start : Run) (file : Text) (placements : List Placement)
    (finish : Nat) (first : FirstPass) :
    (emit settings start file placements finish first).journal.report.limit =
      first.journal.report.limit := by
  have kept := SecondPass.limit_observeAll settings first.symbols.freeze
    ⟨(first.journal.note (.collected first.symbols.freeze.size finish)).note (.emitting file),
      start.output, start.listing, start.written⟩ placements
  unfold emit
  dsimp only
  split
  · exact kept
  · split <;> exact kept

theorem limit_resume (settings : Settings) (start : Run) (file : Text) (lines : List Text) :
    (resume settings start file lines).journal.report.limit = start.journal.report.limit := by
  have kept := FirstPass.limit_observeAll
    ⟨start.symbols, start.journal.note (.collecting file)⟩
    (Layout.ofLines settings.base file lines).placements
  unfold resume
  dsimp only
  split
  · exact kept
  · exact kept
  · split
    · exact kept
    · rw [limit_emit]
      exact kept

theorem limit_next (settings : Settings) (earlier : Run) (file : Text) (lines : List Text) :
    (next settings earlier file lines).journal.report.limit = earlier.journal.report.limit :=
  limit_resume settings (earlier.cleared settings) file lines

def report (run : Run) : Report := run.journal.report

def outputLines (run : Run) : List Text := run.output.map OutputLine.render

def result (run : Run) : Except Failure (List Text) := run.outcome.map fun _ => run.outputLines

def outputText (run : Run) : Text := run.outputLines.flatMap (· ++ ['\n'])

def listingText (run : Run) : Text := TwoPass.listingText run.listing run.symbols

def codeSize (settings : Settings) (run : Run) : Nat := run.finish - settings.base

end Run

end TwoPass
