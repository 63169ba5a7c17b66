import TwoPass.Proofs.Resolution
import TwoPass.Proofs.Run

/-! Layout and output of a run side by side.

The layout goes from line to line by the section and the address, the output by what has been
written. `Transcribed` keeps them in step: the last directive written is that of the section the
layout is in. What holds of every contribution of a line then holds of whole runs. -/

set_option autoImplicit false

namespace TwoPass

def Entry.isEmitted : Entry → Bool
  | .item _ | .code .. => true
  | _ => false

theorem Entry.size_of_not_isEmitted {entry : Entry} (inert : entry.isEmitted = false) :
    entry.size = 0 := by
  cases entry with
  | item | code => cases inert
  | _ => rfl

/-- What a line contributes where nothing is passed through unresolved: where it is placed, and what
it gives rise to. -/
inductive Contribution (settings : Settings) (table : SymbolTable) (file : Text) (cursor : Cursor)
    (raw : Text) : Placement → Emission → Prop
  | nothing {entry : Entry} (inert : entry.isEmitted = false)
    (unlabelled : Placement.symbol? ⟨cursor.number, cursor.inside, cursor.address, entry⟩ = none) :
    Contribution settings table file cursor raw
      ⟨cursor.number, cursor.inside, cursor.address, entry⟩ .nothing
  | directive {line : Line} {target : Section} (read : Line.read raw file cursor.number = .ok line)
    (directive : line.body = .directive target) :
    Contribution settings table file cursor raw
      ⟨cursor.number, some target, cursor.address, .passive line⟩ (.directive target)
  | label {line : Line} {name : Text} (read : Line.read raw file cursor.number = .ok line)
    (label : line.body = .label name) :
    Contribution settings table file cursor raw
      ⟨cursor.number, cursor.inside, cursor.address, .passive line⟩
      (if settings.keepLabels then .label name else .nothing)
  | item {line : Line} {text : Text} (read : Line.read raw file cursor.number = .ok line)
    (content : line.body = .content) (data : cursor.inside = some .data)
    (resolved : line.resolveData table = .ok text) :
    Contribution settings table file cursor raw
      ⟨cursor.number, cursor.inside, cursor.address, .item line⟩ (.lines line.text [text])
  | code {line : Line} {statement : Statement} {instruction : Instruction} {shape : Shape}
    {texts : List Text} (read : Line.read raw file cursor.number = .ok line)
    (code : cursor.inside = some .code) (valid : Statement.Valid line statement instruction shape)
    (writes : Statement.Writes table cursor.address statement instruction shape texts) :
    Contribution settings table file cursor raw
      ⟨cursor.number, cursor.inside, cursor.address, .code statement instruction shape⟩
      (.lines line.text texts)

inductive Transcribed (settings : Settings) (table : SymbolTable) (file : Text) :
    Cursor → List Text → List Placement → List OutputLine → List ListingEntry → Cursor → Prop
  | nil (cursor : Cursor) : Transcribed settings table file cursor [] [] [] [] cursor
  | cons {cursor finish : Cursor} {raw : Text} {lines : List Text} {placement : Placement}
    {placements : List Placement} {emission : Emission} {output : List OutputLine}
    {listing : List ListingEntry}
    (contribution : Contribution settings table file cursor raw placement emission)
    (rest : Transcribed settings table file placement.after lines placements output listing finish) :
    Transcribed settings table file cursor (raw :: lines) (placement :: placements)
      (emission.outputLines cursor.inside ++ output) (emission.listed placement ++ listing) finish

variable {settings : Settings} {table : SymbolTable} {file : Text}

theorem contribution_of_placed {cursor : Cursor} {raw : Text} {placement : Placement}
    {emission : Emission} (number : placement.number = cursor.number)
    (address : placement.address = cursor.address)
    (placed : Placed file cursor.number cursor.inside raw placement.inside placement.entry)
    (emits : Emission.ofPlacement settings table placement = .ok emission)
    (silent : emission.told = []) :
    Contribution settings table file cursor raw placement emission := by
  obtain ⟨ownNumber, inside, ownAddress, entry⟩ := placement
  dsimp only at number address placed
  subst number address
  cases placed with
  | unread failed =>
    obtain ⟨-, rfl⟩ := Emission.ofPlacement_rejected rfl emits
    exact .nothing rfl rfl
  | stray read content outside =>
    cases emits
    exact .nothing rfl rfl
  | refused read content code failed =>
    obtain ⟨-, rfl⟩ := Emission.ofPlacement_rejected rfl emits
    exact .nothing rfl rfl
  | item read content data =>
    obtain ⟨text, resolved, rfl⟩ := Emission.ofItem_eq_ok emits silent
    exact .item read content data resolved
  | code read code valid =>
    obtain ⟨texts, writes, rfl⟩ := Emission.ofCode_eq_ok valid emits silent
    exact .code read code valid writes
  | @passive line read other =>
    cases body : line.body with
    | content => exact absurd body other
    | directive target =>
      simp only [Emission.ofPlacement, body, Except.ok.injEq] at emits
      subst emits
      simp only [Line.sectionAfter, body]
      exact .directive read body
    | label name =>
      simp only [Emission.ofPlacement, body, Except.ok.injEq] at emits
      subst emits
      simp only [Line.sectionAfter, body]
      exact .label read body
    | blank | comment =>
      simp only [Emission.ofPlacement, body, Except.ok.injEq] at emits
      subst emits
      simp only [Line.sectionAfter, body]
      exact .nothing rfl (by simp only [Placement.symbol?, body])

theorem Contribution.sectionAfter_eq {cursor : Cursor} {raw : Text} {placement : Placement}
    {emission : Emission} (contribution : Contribution settings table file cursor raw placement emission) :
    emission.sectionAfter cursor.inside = placement.inside := by
  cases contribution with
  | label read label => cases settings.keepLabels <;> rfl
  | _ => rfl

/-- A layout and what is written for it, from a point on where the output is in the section of the
layout. -/
theorem transcribed_of_laid {start finish : Cursor} {lines : List Text} {placements : List Placement}
    {output : List OutputLine} {listing : List ListingEntry}
    (laid : Laid file start lines placements finish)
    (emitted : Emitted settings table start.inside placements output listing)
    (silent : ∀ placement ∈ placements, ∀ emission,
      Emission.ofPlacement settings table placement = .ok emission → emission.told = []) :
    Transcribed settings table file start lines placements output listing finish := by
  induction laid generalizing output listing with
  | nil cursor =>
    cases emitted
    exact .nil cursor
  | cons number address placed laid ih =>
    cases emitted with
    | cons emits rest =>
      rw [List.forall_mem_cons] at silent
      -- the step that carries the invariant: both sides move to the same section
      have contribution :=
        contribution_of_placed number address placed emits (silent.1 _ emits)
      rw [contribution.sectionAfter_eq] at rest
      exact .cons contribution (ih rest silent.2)

theorem Run.Assembled.transcribed {lines : List Text} {run : Run} {placements : List Placement}
    {finish : Cursor} (assembled : Run.Assembled settings file lines run placements finish)
    (resolved : settings.allowUndefined = false ∨ run.Resolved) :
    Transcribed settings run.symbols file settings.start lines placements run.output run.listing
      finish :=
  transcribed_of_laid assembled.laid assembled.emitted (assembled.silent resolved)

end TwoPass
