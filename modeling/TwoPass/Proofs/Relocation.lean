import TwoPass.Proofs.UndefinedLabel

/-! The same program at another base address.

What a line becomes does not depend on where it stands, so the layout at another base is the same
layout, moved by the distance of the bases, and so is the table. A reference to an address is written
with the new address, and the distance of a relative branch stays what it was. -/

set_option autoImplicit false

namespace TwoPass

/-! ### Moving -/

def movedAddress (distance : Int) (address : Nat) : Nat := (address + distance).toNat

def Settings.moved (settings : Settings) (distance : Int)
    (high : settings.base + distance ≤ Machine.maxAddress) : Settings :=
  { settings with
    base := movedAddress distance settings.base
    base_le := by unfold movedAddress; omega }

def Symbol.moved (distance : Int) (symbol : Symbol) : Symbol :=
  { symbol with address := movedAddress distance symbol.address }

@[simp] theorem Symbol.name_moved (distance : Int) (symbol : Symbol) :
    (symbol.moved distance).name = symbol.name := rfl

def SymbolTable.moved (distance : Int) (table : SymbolTable) : SymbolTable :=
  { table with symbols := table.symbols.map (Symbol.moved distance) }

def Placement.moved (distance : Int) (placement : Placement) : Placement :=
  { placement with address := movedAddress distance placement.address }

def Cursor.moved (distance : Int) (cursor : Cursor) : Cursor :=
  { cursor with address := movedAddress distance cursor.address }

theorem cast_movedAddress {distance : Int} {address : Nat} (low : 0 ≤ address + distance) :
    (movedAddress distance address : Int) = address + distance := by
  unfold movedAddress
  omega

namespace SymbolTable

variable (distance : Int)

theorem find?_moved (table : SymbolTable) (name : Text) :
    (table.moved distance).find? name = (table.find? name).map (Symbol.moved distance) := by
  rw [find?, find?, moved, List.find?_map]
  rfl

theorem contains_moved (table : SymbolTable) (name : Text) :
    (table.moved distance).contains name = table.contains name := by
  rw [contains, contains, find?_moved, Option.isSome_map]

end SymbolTable

namespace Placement

variable (distance : Int)

theorem symbol?_moved (placement : Placement) :
    (placement.moved distance).symbol? = placement.symbol?.map (Symbol.moved distance) := by
  unfold symbol? moved
  dsimp only
  split
  · split <;> rfl
  · rfl

theorem table_moved (placements : List Placement) :
    table (placements.map (moved distance)) = (table placements).moved distance := by
  have symbols : (placements.map (moved distance)).filterMap symbol? =
      (placements.filterMap symbol?).map (Symbol.moved distance) := by
    rw [List.filterMap_map, List.map_filterMap]
    apply List.filterMap_congr
    intro placement _
    exact symbol?_moved distance placement
  rw [table, table, symbols, SymbolTable.moved, ← SymbolTable.insertAll_map (Symbol.name_moved distance)]
  rfl

end Placement

namespace Laid

variable {file : Text} {start finish : Cursor} {lines : List Text} {placements : List Placement}
  {distance : Int}

theorem start_le (laid : Laid file start lines placements finish) :
    ∀ placement ∈ placements, start.address ≤ placement.address := by
  induction laid with
  | nil cursor => simp
  | @cons cursor finish raw rest placement placements number address placed laid ih =>
    rw [List.forall_mem_cons]
    refine ⟨address.ge, fun later member => ?_⟩
    have further : cursor.address ≤ placement.after.address := by
      rw [← address]
      exact Nat.le_add_right _ _
    exact further.trans (ih later member)

theorem pairwise_address (laid : Laid file start lines placements finish) :
    placements.Pairwise fun earlier later => earlier.address ≤ later.address := by
  induction laid with
  | nil cursor => exact .nil
  | @cons cursor finish raw rest placement placements number address placed laid ih =>
    refine .cons (fun later member => ?_) ih
    exact (Nat.le_add_right _ _).trans (laid.start_le later member)

theorem moved (laid : Laid file start lines placements finish) (low : 0 ≤ start.address + distance) :
    Laid file (start.moved distance) lines (placements.map (Placement.moved distance))
      (finish.moved distance) := by
  induction laid with
  | nil cursor => exact .nil _
  | @cons cursor finish raw rest placement placements number address placed laid ih =>
    have reached : placement.after.address = cursor.address + placement.entry.size := by
      rw [← address]
      rfl
    have after : (placement.moved distance).after = placement.after.moved distance := by
      have sum : movedAddress distance placement.address + placement.entry.size =
          movedAddress distance (placement.address + placement.entry.size) := by
        unfold movedAddress
        omega
      rw [Placement.after, Cursor.moved]
      exact congrArg (Cursor.mk _ _) sum
    refine .cons number (congrArg (movedAddress distance) address) placed ?_
    rw [after]
    exact ih (by omega)

end Laid

/-! ### References -/

/-- A line that refers to addresses themselves: a data item or a jump, a call or a load with a label. -/
def Placement.refersAbsolutely (placement : Placement) : Bool :=
  !placement.references.isEmpty && match placement.entry with
    | .code _ instruction _ => instruction.mnemonic ∈ (["br", "call", "ld"] : List Text)
    | _ => true

namespace Line

variable {line : Line} {table other : SymbolTable} {pieces : List DataPiece}

theorem resolvePieces_unreferring (plain : pieces.filterMap DataPiece.name? = []) :
    line.resolvePieces table pieces = line.resolvePieces other pieces := by
  induction pieces with
  | nil => rfl
  | cons piece rest ih =>
    cases piece with
    | plain c =>
      rw [resolvePieces, resolvePieces, ih plain]
      rfl
    | reference offset name => cases plain

end Line

namespace Statement

variable {line : Line} {statement resolved moved : Statement} {instruction : Instruction}
  {shape : Shape} {table : SymbolTable} {distance : Int} {place : Nat}

/-- A statement that does not refer to an address itself is resolved to the same at a distance. -/
theorem Valid.resolved_moved (valid : Valid line statement instruction shape)
    (unlabelled : instruction.mnemonic ∈ (["br", "call", "ld"] : List Text) →
      ∀ operand ∈ statement.operands, operand.value.label? = none)
    (low : ∀ name symbol, table.find? name = some symbol → 0 ≤ symbol.address + distance)
    (lowPlace : 0 ≤ place + distance)
    (done : statement.resolve table shape place = .ok resolved)
    (doneMoved : statement.resolve (table.moved distance) shape (movedAddress distance place) =
      .ok moved) : moved = resolved := by
  have absolute (named : instruction.mnemonic ∈ (["br", "call", "ld"] : List Text))
      {operand : Operand} {name : Text} (member : operand ∈ statement.operands)
      (label : operand.value = .label name) : False := by
    have none := unlabelled named operand member
    rw [label] at none
    cases none
  have shaped := valid.takes.1
  cases valid.resolution done with
  | plain unlabelled =>
    cases valid.resolution doneMoved with
    | plain => rfl
    | address | relative | load => cases unlabelled
  | address only label bound =>
    rcases Instruction.labelled_shapes valid.mem_catalog shaped rfl with
      ⟨-, -, named⟩ | ⟨other, -⟩ | ⟨other, -⟩
    · refine (absolute ?_ (by simp [only]) label).elim
      rcases named with named | named <;> simp [named]
    · cases other
    · cases other
  | load both register label bound =>
    rcases Instruction.labelled_shapes valid.mem_catalog shaped rfl with
      ⟨other, -⟩ | ⟨other, -⟩ | ⟨-, -, named⟩
    · cases other
    · cases other
    · exact (absolute (by simp [named]) (by simp [both]) label).elim
  | @relative operand name symbol only label bound near =>
    cases valid.resolution doneMoved with
    | plain unlabelled => cases unlabelled
    | @relative otherOperand otherName otherSymbol otherOnly otherLabel otherBound otherNear =>
      cases only.symm.trans otherOnly
      cases label.symm.trans otherLabel
      rw [SymbolTable.find?_moved, bound] at otherBound
      cases otherBound
      -- both ends of the branch are moved
      have same : ((symbol.moved distance).address : Int) - movedAddress distance place =
          symbol.address - place := by
        rw [Symbol.moved, cast_movedAddress (low name symbol bound), cast_movedAddress lowPlace]
        omega
      rw [same]

theorem problem?_moved {slot : Slot} {operand : Operand}
    (low : ∀ name symbol, table.find? name = some symbol → 0 ≤ symbol.address + distance)
    (lowPlace : 0 ≤ place + distance)
    (silent : operand.problem? line table place slot = none) :
    operand.problem? line (table.moved distance) (movedAddress distance place) slot = none := by
  unfold Operand.problem? at silent ⊢
  split at silent
  · next name label =>
    split at silent
    · cases silent
    · next symbol bound =>
      have moved : (table.moved distance).find? name = some (symbol.moved distance) := by
        rw [SymbolTable.find?_moved, bound]
        rfl
      have same : ((symbol.moved distance).address : Int) - movedAddress distance place =
          symbol.address - place := by
        rw [Symbol.moved, cast_movedAddress (low name symbol bound), cast_movedAddress lowPlace]
        omega
      simp only [moved, same]
      exact silent
  · rfl

end Statement

namespace Emission

variable {settings : Settings} {table : SymbolTable} {distance : Int} {file raw : Text}
  {inside : Option Section} {placement : Placement} {emission : Emission}

structure Relocated (placement : Placement) (emission moved : Emission) : Prop where
  sectionAfter : ∀ written, moved.sectionAfter written = emission.sectionAfter written
  length : ∀ written, (moved.outputLines written).length = (emission.outputLines written).length
  same : placement.refersAbsolutely = false → moved = emission

theorem Relocated.refl : Relocated placement emission emission :=
  ⟨fun _ => rfl, fun _ => rfl, fun _ => rfl⟩

theorem lineSize_pos {number address : Nat} {text : Text}
    (placed : Placed file placement.number inside raw placement.inside placement.entry)
    (content : placement.content? = some (number, address, text)) :
    0 < OutputReader.lineSize placement.inside := by
  obtain ⟨ownNumber, after, ownAddress, entry⟩ := placement
  dsimp only at placed
  cases placed with
  | item read content data =>
    subst data
    exact (by decide : 0 < 8)
  | code read code valid =>
    subst code
    exact (by decide : 0 < 4)
  | _ => cases content

theorem relocated_of_content {moved : Emission} {number address : Nat} {text : Text}
    (placed : Placed file placement.number inside raw placement.inside placement.entry)
    (content : placement.content? = some (number, address, text))
    (emits : ofPlacement settings table placement = .ok emission) (silent : emission.told = [])
    (emitsMoved : ofPlacement settings (table.moved distance) (placement.moved distance) = .ok moved)
    (silentMoved : moved.told = [])
    (same : placement.refersAbsolutely = false → moved = emission) :
    Relocated placement emission moved := by
  obtain ⟨texts, rfl, size⟩ := lines_of_content placed content emits silent
  have contentMoved : (placement.moved distance).content? =
      some (number, movedAddress distance address, text) := by
    unfold Placement.content? at content ⊢
    dsimp only [Placement.moved]
    split at content <;> cases content <;> rfl
  have placedMoved : Placed file (placement.moved distance).number inside raw
    (placement.moved distance).inside (placement.moved distance).entry := placed
  obtain ⟨others, rfl, sizeMoved⟩ := lines_of_content placedMoved contentMoved emitsMoved silentMoved
  refine ⟨fun _ => rfl, fun _ => ?_, same⟩
  -- both are as many as the size of the line says
  have equal : OutputReader.lineSize placement.inside * others.length =
      OutputReader.lineSize placement.inside * texts.length := sizeMoved.symm.trans size
  rw [outputLines, outputLines, List.length_map, List.length_map]
  exact Nat.eq_of_mul_eq_mul_left (lineSize_pos placed content) equal

theorem ofItem_moved {line : Line}
    (unreferring : (DataPiece.ofText line.text).filterMap DataPiece.name? = []) :
    ofItem settings (table.moved distance) line = ofItem settings table line := by
  rw [ofItem, ofItem, Line.resolveData, Line.resolveData, Line.resolvePieces_unreferring unreferring]

theorem ofCode_moved {line : Line} {statement : Statement} {instruction : Instruction} {shape : Shape}
    {address : Nat} (valid : Statement.Valid line statement instruction shape)
    (unlabelled : instruction.mnemonic ∈ (["br", "call", "ld"] : List Text) →
      ∀ operand ∈ statement.operands, operand.value.label? = none)
    (low : ∀ name symbol, table.find? name = some symbol → 0 ≤ symbol.address + distance)
    (lowPlace : 0 ≤ address + distance) (near : statement.labelProblem? table shape address = none)
    (nearMoved : statement.labelProblem? (table.moved distance) shape
      (movedAddress distance address) = none) :
    ofCode settings (table.moved distance) (movedAddress distance address) statement instruction
      shape = ofCode settings table address statement instruction shape := by
  obtain ⟨resolved, done⟩ := valid.exists_resolved near
  obtain ⟨resolvedMoved, doneMoved⟩ := valid.exists_resolved nearMoved
  cases valid.resolved_moved unlabelled low lowPlace done doneMoved
  rw [ofCode, ofCode, done, doneMoved]

theorem exists_relocated (strict : settings.allowUndefined = false)
    (placed : Placed file placement.number inside raw placement.inside placement.entry)
    (low : ∀ name symbol, table.find? name = some symbol → 0 ≤ symbol.address + distance)
    (lowPlace : 0 ≤ placement.address + distance)
    (emits : ofPlacement settings table placement = .ok emission) :
    ∃ moved, ofPlacement settings (table.moved distance) (placement.moved distance) = .ok moved ∧
      Relocated placement emission moved := by
  have silent := told_of_strict strict emits
  have accepted : ∀ line found, placement.entry = .rejected line found → found.isFatal = false :=
    fun line found entry => (ofPlacement_rejected entry emits).1
  have placedMoved : Placed file (placement.moved distance).number inside raw
    (placement.moved distance).inside (placement.moved distance).entry := placed
  -- a line about which nothing is to be told is written, so it is enough to move the silence
  have written (untold : (placement.moved distance).toldOnEmitting settings (table.moved distance) =
      []) := exists_of_silent placedMoved accepted untold
  have told := @toldBy_ofPlacement settings table file raw inside placement placed accepted
  rw [emits] at told
  replace told : placement.toldOnEmitting settings table = [] := told.symm.trans silent
  obtain ⟨number, after, address, entry⟩ := placement
  dsimp only at placed lowPlace
  cases placed with
  | @item line read content data =>
    have unbound : line.itemProblem? table = none := by simpa [Placement.toldOnEmitting] using told
    have unboundMoved : line.itemProblem? (table.moved distance) = none := by
      rw [Line.itemProblem?_eq_none_iff] at unbound ⊢
      simpa only [SymbolTable.contains_moved] using unbound
    obtain ⟨moved, emitsMoved, silentMoved⟩ := written (by
      simp [Placement.toldOnEmitting, Placement.moved, unboundMoved])
    refine ⟨moved, emitsMoved, relocated_of_content (.item read content data) rfl emits silent
      emitsMoved silentMoved fun plain => ?_⟩
    have unreferring : (DataPiece.ofText line.text).filterMap DataPiece.name? = [] := by
      simpa [Placement.refersAbsolutely, Placement.references] using plain
    exact Except.ok.inj (emitsMoved.symm.trans ((ofItem_moved unreferring).trans emits))
  | @code line statement instruction shape read code valid =>
    have near : statement.labelProblem? table shape address = none := by
      simpa [Placement.toldOnEmitting] using told
    have nearMoved : statement.labelProblem? (table.moved distance) shape
        (movedAddress distance address) = none := by
      rw [Statement.labelProblem?, List.findSome?_eq_none_iff] at near ⊢
      exact fun pair member => Statement.problem?_moved low lowPlace (near pair member)
    obtain ⟨moved, emitsMoved, silentMoved⟩ := written (by
      simp [Placement.toldOnEmitting, Placement.moved, nearMoved])
    refine ⟨moved, emitsMoved, relocated_of_content (.code read code valid) rfl emits silent
      emitsMoved silentMoved fun relative => ?_⟩
    have unlabelled : instruction.mnemonic ∈ (["br", "call", "ld"] : List Text) →
        ∀ operand ∈ statement.operands, operand.value.label? = none := by
      intro named
      rw [Placement.refersAbsolutely, Bool.and_eq_false_iff] at relative
      rcases relative with unreferring | other
      · simpa [Placement.references] using unreferring
      · simp only [named, decide_true, Bool.true_eq_false] at other
    have same := @ofCode_moved settings _ _ _ _ _ _ _ valid unlabelled low lowPlace near nearMoved
    exact Except.ok.inj (emitsMoved.symm.trans (same.trans emits))
  | _ => exact ⟨emission, emits, .refl⟩

theorem ofPlacement_moved (settings : Settings) (distance : Int)
    (high : settings.base + distance ≤ Machine.maxAddress) (table : SymbolTable)
    (placement : Placement) :
    ofPlacement (settings.moved distance high) table placement =
      ofPlacement settings table placement := rfl

end Emission

/-! ### Programs -/

/-- The shares of a line at two base addresses: as many lines, and the same ones unless the line refers
to addresses themselves. A relative branch never does. -/
structure Placement.SharesAlike (placement : Placement) (share moved : List OutputLine) : Prop where
  length : moved.length = share.length
  same : placement.refersAbsolutely = false → moved = share
  branch : ∀ statement instruction shape, placement.entry = .code statement instruction shape →
    instruction.mnemonic = "brr" → moved = share

theorem Emission.Relocated.sharesAlike {placement : Placement} {emission moved : Emission}
    (relocated : Relocated placement emission moved) (written : Option Section) :
    placement.SharesAlike (emission.outputLines written) (moved.outputLines written) where
  length := relocated.length written
  same relative := by rw [relocated.same relative]
  branch statement instruction shape entry named := by
    rw [relocated.same]
    simp [Placement.refersAbsolutely, entry, named]

section
variable {settings : Settings} {file : Text} {start finish : Cursor} {lines : List Text}
  {placements : List Placement} {distance : Int}

theorem outputShares_moved {table : SymbolTable} (strict : settings.allowUndefined = false)
    (high : settings.base + distance ≤ Machine.maxAddress)
    (low : ∀ name symbol, table.find? name = some symbol → 0 ≤ symbol.address + distance)
    (placed : ∀ placement ∈ placements, ∃ inside raw,
      Placed file placement.number inside raw placement.inside placement.entry)
    (lowPlace : ∀ placement ∈ placements, 0 ≤ placement.address + distance)
    (written : ∀ placement ∈ placements, ∃ emission,
      Emission.ofPlacement settings table placement = .ok emission)
    (last : Option Section) :
    List.Forall₂ (fun (pair : Placement × List OutputLine) moved => pair.1.SharesAlike pair.2 moved)
      (placements.zip (outputShares settings table last placements))
      (outputShares (settings.moved distance high) (table.moved distance) last
        (placements.map (Placement.moved distance))) := by
  induction placements generalizing last with
  | nil => exact .nil
  | cons placement rest ih =>
    rw [List.forall_mem_cons] at placed lowPlace written
    obtain ⟨⟨inside, raw, own⟩, placedRest⟩ := placed
    obtain ⟨⟨emission, emits⟩, writtenRest⟩ := written
    obtain ⟨moved, emitsMoved, relocated⟩ :=
      Emission.exists_relocated strict own low lowPlace.1 emits
    rw [← Emission.ofPlacement_moved settings distance high] at emitsMoved
    rw [List.map_cons, outputShares, outputShares, Placement.emission_of_ok emits,
      Placement.emission_of_ok emitsMoved, relocated.sectionAfter]
    exact .cons (relocated.sharesAlike last) (ih placedRest lowPlace.2 writtenRest _)

theorem Placement.address_of_symbol? {placement : Placement} {symbol : Symbol}
    (made : placement.symbol? = some symbol) : symbol.address = placement.address := by
  unfold symbol? at made
  split at made
  · split at made
    · cases made
      rfl
    · cases made
  · cases made

/-- The binding that counts is not in front of any other of its name. -/
theorem SymbolTable.exists_last {made : List Symbol}
    (sorted : made.Pairwise fun earlier later => earlier.address ≤ later.address) {symbol : Symbol}
    (member : symbol ∈ made) :
    ∃ last ∈ insertAll [] made, symbol.address ≤ last.address := by
  obtain ⟨last, found⟩ : ∃ last, made.reverse.find? (·.name == symbol.name) = some last := by
    rw [← Option.isSome_iff_exists, List.find?_isSome]
    exact ⟨symbol, List.mem_reverse.mpr member, beq_self_eq_true _⟩
  have bound : (insertAll [] made).find? (·.name == symbol.name) = some last := by
    rw [find?_insertAll, List.find?_nil, Option.or_none, found]
  refine ⟨last, List.mem_of_find?_eq_some bound, ?_⟩
  obtain ⟨-, later, earlier, whole, others⟩ := List.find?_eq_some_iff_append.mp found
  rw [← List.mem_reverse, whole, List.mem_append, List.mem_cons] at member
  rcases member with behind | rfl | before
  · simpa using others symbol behind
  · exact Nat.le_refl _
  · rw [← List.pairwise_reverse, whole, List.pairwise_append] at sorted
    exact List.rel_of_pairwise_cons sorted.2.1 before

theorem SymbolTable.mem_of_mem_insertAll {symbols made : List Symbol} {symbol : Symbol}
    (member : symbol ∈ insertAll symbols made) : symbol ∈ symbols ∨ symbol ∈ made := by
  induction made generalizing symbols with
  | nil => exact .inl member
  | cons first rest ih =>
    have step : symbol ∈ insertAll (insert first symbols) rest := member
    rcases ih step with inserted | later
    · rcases eq_or_mem_of_mem_insert inserted with rfl | before
      · exact .inr List.mem_cons_self
      · exact .inl before
    · exact .inr (List.mem_cons_of_mem first later)

theorem Laid.low_of_mem (laid : Laid file start lines placements finish)
    (low : 0 ≤ start.address + distance) {symbol : Symbol}
    (bound : symbol ∈ (Placement.table placements).symbols) : 0 ≤ symbol.address + distance := by
  rcases SymbolTable.mem_of_mem_insertAll bound with before | made
  · cases before
  · obtain ⟨placement, member, own⟩ := List.mem_filterMap.mp made
    have further := laid.start_le placement member
    rw [Placement.address_of_symbol? own]
    omega

theorem Laid.low_of_find? (laid : Laid file start lines placements finish)
    (low : 0 ≤ start.address + distance) {name : Text} {symbol : Symbol}
    (bound : (Placement.table placements).find? name = some symbol) :
    0 ≤ symbol.address + distance :=
  laid.low_of_mem low (List.mem_of_find?_eq_some bound)

theorem Placement.Writable.moved (writable : Placement.Writable settings placements)
    (strict : settings.allowUndefined = false)
    (high : settings.base + distance ≤ Machine.maxAddress)
    (laid : Laid file start lines placements finish) (low : 0 ≤ start.address + distance)
    (fits : ∀ symbol ∈ (Placement.table placements).symbols,
      symbol.address + distance ≤ Machine.maxAddress) :
    Placement.Writable (settings.moved distance high)
      (placements.map (Placement.moved distance)) where
  sound := by
    rw [List.forall_mem_map]
    intro placement member
    refine ⟨(writable.sound placement member).accepted, fun symbol made => ?_⟩
    rw [symbol?_moved, Option.map_eq_some_iff] at made
    obtain ⟨own, made, rfl⟩ := made
    have sorted : (placements.filterMap symbol?).Pairwise fun earlier later =>
        earlier.address ≤ later.address := by
      refine laid.pairwise_address.filterMap symbol? fun earlier later before first one second two => ?_
      rwa [address_of_symbol? one, address_of_symbol? two]
    obtain ⟨last, bound, behind⟩ :=
      SymbolTable.exists_last sorted (List.mem_filterMap.mpr ⟨placement, member, made⟩)
    have room := fits last bound
    unfold Symbol.moved movedAddress
    dsimp only
    omega
  written := by
    rw [List.forall_mem_map]
    intro placement member
    obtain ⟨inside, raw, placed⟩ := laid.placed_of_mem placement member
    obtain ⟨emission, emits⟩ := writable.written placement member
    have lowPlace : 0 ≤ placement.address + distance := by
      have further := laid.start_le placement member
      omega
    obtain ⟨moved, emitsMoved, -⟩ := Emission.exists_relocated strict placed
      (fun name symbol bound => laid.low_of_find? low bound) lowPlace emits
    rw [table_moved]
    exact ⟨moved, emitsMoved⟩

theorem Laid.bindings_moved (laid : Laid file start lines placements finish)
    (low : 0 ≤ start.address + distance) :
    ((Placement.table placements).moved distance).bindings.map
        (fun binding => (binding.1, (binding.2 : Int))) =
      (Placement.table placements).bindings.map fun binding => (binding.1, binding.2 + distance) := by
  rw [SymbolTable.bindings, SymbolTable.bindings, SymbolTable.moved, List.map_map, List.map_map,
    List.map_map]
  apply List.map_congr_left
  intro symbol bound
  exact congrArg (Prod.mk symbol.name) (cast_movedAddress (laid.low_of_mem low bound))

theorem length_flatten_of_alike {pairs : List (Placement × List OutputLine)}
    {shares : List (List OutputLine)}
    (alike : List.Forall₂ (fun pair share => pair.1.SharesAlike pair.2 share) pairs shares) :
    shares.flatten.length = (pairs.map Prod.snd).flatten.length := by
  induction alike with
  | nil => rfl
  | cons first rest ih =>
    rw [List.map_cons, List.flatten_cons, List.flatten_cons, List.length_append, List.length_append,
      first.length, ih]

end

namespace Run

/-- A program that is assembled is assembled at another base address too, if that and all labels still
fit there. Every label is moved by the distance of the bases and keeps its place in the table; the
size is the same; and every line has as many lines of output, the same ones unless it is a data item,
a jump, a call or a load that refers to a label. -/
theorem relocated_by_base (settings : Settings) (file : Text) (lines : List Text) (distance : Int)
    (strict : settings.allowUndefined = false)
    (returned : (Run.ofLines settings file lines).outcome = .ok ())
    (low : 0 ≤ settings.base + distance) (high : settings.base + distance ≤ Machine.maxAddress)
    (fits : ∀ binding ∈ (Run.ofLines settings file lines).symbols.bindings,
      binding.2 + distance ≤ Machine.maxAddress) :
    let run := Run.ofLines settings file lines
    let placements := (Layout.ofLines settings.base file lines).placements
    let settingsThere := settings.moved distance high
    let there := Run.ofLines settingsThere file lines
    let placementsThere := (Layout.ofLines settingsThere.base file lines).placements
    (settingsThere.base : Int) = settings.base + distance ∧
    there.outcome = .ok () ∧
    there.symbols.bindings.map (fun binding => (binding.1, (binding.2 : Int))) =
      run.symbols.bindings.map (fun binding => (binding.1, binding.2 + distance)) ∧
    there.codeSize settingsThere = run.codeSize settings ∧
    there.output.length = run.output.length ∧
    placements.map Placement.number = List.range' 1 lines.length ∧
    run.output = (outputShares settings run.symbols none placements).flatten ∧
    there.output = (outputShares settingsThere there.symbols none placementsThere).flatten ∧
    List.Forall₂ (fun (pair : Placement × List OutputLine) moved => pair.1.SharesAlike pair.2 moved)
      (placements.zip (outputShares settings run.symbols none placements))
      (outputShares settingsThere there.symbols none placementsThere) := by
  intro run placements settingsThere there placementsThere
  obtain ⟨all, finish, assembled⟩ := assembled_of_outcome returned
  have whole : placements = all := assembled.placements_eq
  subst whole
  have symbols : run.symbols = Placement.table placements := assembled.table_eq
  have fitsAll : ∀ symbol ∈ (Placement.table placements).symbols,
      symbol.address + distance ≤ Machine.maxAddress := by
    intro symbol bound
    exact fits (symbol.name, symbol.address) (List.mem_map_of_mem (symbols ▸ bound))
  have laidThere : Laid file settingsThere.start lines (placements.map (Placement.moved distance))
      (finish.moved distance) := assembled.laid.moved low
  obtain ⟨returnedThere, assembledThere⟩ :=
    assembled_of_writable laidThere (assembled.writable.moved strict high assembled.laid low fitsAll)
  have movedPlacements : placementsThere = placements.map (Placement.moved distance) :=
    assembledThere.placements_eq
  have movedSymbols : there.symbols = (Placement.table placements).moved distance := by
    rw [← Placement.table_moved]
    exact assembledThere.table_eq
  have alike : List.Forall₂
      (fun (pair : Placement × List OutputLine) share => pair.1.SharesAlike pair.2 share)
      (placements.zip (outputShares settings run.symbols none placements))
      (outputShares settingsThere there.symbols none placementsThere) := by
    rw [movedPlacements, movedSymbols, symbols]
    refine outputShares_moved strict high (fun name symbol bound => assembled.laid.low_of_find? low bound)
      assembled.laid.placed_of_mem (fun placement member => ?_) assembled.writable.written none
    have further : settings.base ≤ placement.address := assembled.laid.start_le placement member
    omega
  have output := (shares_of_outcome returned).1
  have outputThere := (shares_of_outcome returnedThere).1
  refine ⟨cast_movedAddress low, returnedThere, ?_, ?_, ?_, assembled.laid.numbers_eq, output,
    outputThere, alike⟩
  · rw [movedSymbols, symbols]
    exact assembled.laid.bindings_moved low
  · have reached : finish.address = settings.base + _ :=
      congrArg Cursor.address assembled.laid.finish_eq
    have ended : run.finish = finish.address := assembled.ended
    have endedThere : there.finish = movedAddress distance finish.address := assembledThere.ended
    have base : settingsThere.base = movedAddress distance settings.base := rfl
    rw [codeSize, codeSize, ended, endedThere, base]
    unfold movedAddress
    omega
  · have same := length_flatten_of_alike alike
    rw [List.map_snd_zip (length_outputShares ..).le] at same
    rw [show there.output = _ from outputThere, show run.output = _ from output]
    exact same

/-- A program with a label that is defined again, moved to the address zero. -/
theorem relocated_by_base_zero :
    let lines : List Text := [".code", ":TOP", "brr :END", "br :END", ":END", ".data", "7 :TOP",
      ":TOP", "7"]
    let run := Run.ofLines {} "demo" lines
    let settingsThere := Settings.moved {} (-4096) (by decide)
    let there := Run.ofLines settingsThere "demo" lines
    run.outcome = .ok () ∧ settingsThere.base = 0 ∧
      (∀ binding ∈ run.symbols.bindings, binding.2 + (-4096 : Int) ≤ Machine.maxAddress) ∧
      there.outcome = .ok () ∧
      there.symbols.bindings.map (fun binding => (binding.1, (binding.2 : Int))) =
        ([("TOP", 16), ("END", 8)] : List (Text × Int)) ∧
      there.codeSize settingsThere = run.codeSize {} ∧ there.output.length = run.output.length ∧
      run.outputLines =
        ([".code", "\tbrr 8", "\tbr 4104", ".data", "\t7 4112", "\t7"] : List Text) ∧
      there.outputLines = ([".code", "\tbrr 8", "\tbr 8", ".data", "\t7 16", "\t7"] : List Text) := by
  intro lines run settingsThere there
  have returned : run.outcome = .ok () := by decide +kernel
  have fits : ∀ binding ∈ run.symbols.bindings, binding.2 + (-4096 : Int) ≤ Machine.maxAddress := by
    decide +kernel
  obtain ⟨-, returnedThere, bindings, size, length, -⟩ :=
    relocated_by_base {} "demo" lines (-4096) rfl returned (by decide) (by decide) fits
  refine ⟨returned, rfl, fits, returnedThere, ?_, size, length, by decide +kernel, by decide +kernel⟩
  rw [bindings]
  decide +kernel

end Run

end TwoPass
