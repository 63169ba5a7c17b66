import TwoPass.Proofs.DataItem
import TwoPass.Proofs.Reference
import TwoPass.Proofs.Text.Patch

/-! The references of a data item.

A reference is a colon and a name behind it, told by what stands in front of the colon and behind the
name. Cutting a text into pieces finds the references of the text and nothing else, in their order. So
a data item is resolved by writing an address over each of its references; it fails at the first one
whose label is not bound. -/

set_option autoImplicit false

namespace TwoPass

/-- A colon at an offset of a text, and a name behind it that is as long as it can be. In front of the
colon there is neither a word character nor another colon. -/
def Text.RefersAt (text : Text) (offset : Nat) (name : Text) : Prop :=
  ∃ front rest, text = front ++ ':' :: (name ++ rest) ∧ front.length = offset ∧
    Text.isName name = true ∧ Scan.Apart rest ∧
    ∀ c, front.getLast? = some c → c ≠ ':' ∧ Text.isWordCharacter c = false

def SymbolTable.patch (table : SymbolTable) (offset : Nat) (name : Text) : Text.Patch :=
  ⟨offset, offset + (":" ++ name).length, Numeral.decimalNat ((table.address? name).getD 0)⟩

namespace DataPiece

def reference? : DataPiece → Option (Nat × Text)
  | .plain _ => none
  | .reference offset name => some (offset, name)

theorem blocksReference_eq_false_iff {before : Option Char} : blocksReference before = false ↔
    ∀ c, before = some c → c ≠ ':' ∧ Text.isWordCharacter c = false := by
  cases before with
  | none => simp [blocksReference]
  | some c => simp [blocksReference]

theorem name_append_inj {name other rest tail : Text} (valid : Text.isName name = true)
    (apart : Scan.Apart rest) (valid' : Text.isName other = true) (apart' : Scan.Apart tail)
    (same : name ++ rest = other ++ tail) : name = other := by
  have taken := Scan.takeWhile_append (Scan.isNameChar_of_mem_name valid) (fun _ named => named) apart
  have taken' :=
    Scan.takeWhile_append (Scan.isNameChar_of_mem_name valid') (fun _ named => named) apart'
  rw [← taken, same, taken']

/-- A name holds no colon, so the next one stands behind it. -/
theorem exists_behind_name {name rest front tail : Text} (valid : Text.isName name = true)
    (same : name ++ rest = front ++ ':' :: tail) :
    ∃ others, front = name ++ others ∧ rest = others ++ ':' :: tail := by
  rcases List.append_eq_append_iff.mp same with behind | ⟨inside, split, later⟩
  · exact behind
  · cases inside with
    | nil => exact ⟨[], by simpa using split.symm, by simpa using later.symm⟩
    | cons c inside =>
      obtain ⟨rfl, -⟩ := List.cons_eq_cons.mp later
      exact absurd (Scan.isNameChar_of_mem_name valid ':' (by simp [split])) (by decide)

def RefersBehind (before : Option Char) (text : Text) (distance : Nat) (name : Text) : Prop :=
  ∃ front rest, text = front ++ ':' :: (name ++ rest) ∧ front.length = distance ∧
    Text.isName name = true ∧ Scan.Apart rest ∧ blocksReference (front.getLast?.or before) = false

namespace Pieces

variable {blocked : Bool} {offset : Nat} {text : Text} {pieces : List DataPiece}

theorem mem_iff (cut : Pieces blocked offset text pieces) {before : Option Char}
    (fits : blocksReference before = blocked) {place : Nat} {name : Text} :
    .reference place name ∈ pieces ↔
      ∃ distance, place = offset + distance ∧ RefersBehind before text distance name := by
  induction cut generalizing before with
  | nil =>
    constructor
    · exact nofun
    · rintro ⟨distance, -, front, rest, whole, -⟩
      simp at whole
  | @plain blocked offset c rest pieces other more ih =>
    rw [List.mem_cons, or_iff_right nofun, ih rfl]
    constructor
    · rintro ⟨distance, rfl, front, tail, rfl, rfl, valid, apart, free⟩
      refine ⟨front.length + 1, by omega, c :: front, tail, rfl, rfl, valid, apart, ?_⟩
      rwa [getLast?_cons_or]
    · rintro ⟨distance, rfl, front, tail, whole, rfl, valid, apart, free⟩
      cases front with
      | nil =>
        obtain ⟨rfl, rfl⟩ := List.cons_eq_cons.mp whole
        exact absurd ⟨rfl, fits.symm.trans free, Scan.startsName_append valid tail⟩ other
      | cons d front =>
        obtain ⟨rfl, rfl⟩ := List.cons_eq_cons.mp whole
        rw [getLast?_cons_or] at free
        exact ⟨front.length, by rw [List.length_cons]; omega, front, tail, rfl, rfl, valid, apart, free⟩
  | @reference offset own rest pieces valid apart more ih =>
    -- what stands in front of a text behind the name is the last character of the name
    have behind (front : Text) : (':' :: (own ++ front)).getLast?.or before =
        front.getLast?.or (own.getLast?.or (some ':')) := by
      rw [getLast?_cons_or, List.getLast?_append, Option.or_assoc]
    rw [List.mem_cons, ih (blocksReference_of_name valid (some ':'))]
    constructor
    · rintro (same | ⟨distance, rfl, front, tail, rfl, rfl, valid', apart', free⟩)
      · cases same
        exact ⟨0, rfl, [], rest, rfl, rfl, valid, apart, fits⟩
      · refine ⟨1 + own.length + front.length, by omega, ':' :: (own ++ front), tail, by simp, ?_,
          valid', apart', behind front ▸ free⟩
        simp only [List.length_cons, List.length_append]
        omega
    · rintro ⟨distance, rfl, front, tail, whole, rfl, valid', apart', free⟩
      cases front with
      | nil =>
        obtain ⟨-, same⟩ := List.cons_eq_cons.mp whole
        cases name_append_inj valid apart valid' apart' same
        exact .inl rfl
      | cons d front =>
        obtain ⟨rfl, same⟩ := List.cons_eq_cons.mp whole
        obtain ⟨front, rfl, rfl⟩ := exists_behind_name valid same
        rw [behind] at free
        refine .inr ⟨front.length, ?_, front, tail, rfl, rfl, valid', apart', free⟩
        simp only [List.length_cons, List.length_append]
        omega

theorem pairwise (cut : Pieces blocked offset text pieces) :
    (pieces.filterMap reference?).Pairwise fun first second => first.1 < second.1 := by
  induction cut with
  | nil => exact .nil
  | plain other more ih => exact ih
  | @reference offset name rest pieces valid apart more ih =>
    refine .cons ?_ ih
    intro later member
    obtain ⟨piece, inside, told⟩ := List.mem_filterMap.mp member
    cases piece with
    | plain c => cases told
    | reference place other =>
      cases told
      obtain ⟨distance, rfl, -⟩ := (@mem_iff _ _ _ _ more (some ':') rfl _ _).mp inside
      dsimp only
      omega

theorem patched (cut : Pieces blocked offset text pieces) (table : SymbolTable) :
    Text.Patched offset text
      ((pieces.filterMap reference?).map fun reference => table.patch reference.1 reference.2)
      (pieces.flatMap (written fun name => (table.address? name).getD 0)) := by
  induction cut with
  | nil => exact .nil
  | @plain blocked offset c rest pieces other more ih => exact .same c ih
  | @reference offset name rest pieces valid apart more ih =>
    have next : offset + (':' :: name).length = offset + 1 + name.length := by
      rw [List.length_cons]
      omega
    rw [← next] at ih
    exact .patch (':' :: name) _ ih

end Pieces

def references (text : Text) : List (Nat × Text) := (ofText text).filterMap reference?

variable {text : Text} {offset : Nat} {name : Text}

theorem mem_ofText_iff : .reference offset name ∈ ofText text ↔ text.RefersAt offset name := by
  rw [ofText, (pieces_split none 0 text).mem_iff rfl]
  simp only [Nat.zero_add, exists_eq_left', RefersBehind, Option.or_none,
    blocksReference_eq_false_iff, Text.RefersAt]

theorem mem_references_iff : (offset, name) ∈ references text ↔ text.RefersAt offset name := by
  rw [references, List.mem_filterMap, ← mem_ofText_iff]
  constructor
  · rintro ⟨piece, member, told⟩
    cases piece with
    | plain c => cases told
    | reference => cases told; exact member
  · intro member
    exact ⟨_, member, rfl⟩

theorem hasReferences_iff : hasReferences text = true ↔ ∃ offset name, text.RefersAt offset name := by
  simp only [hasReferences, List.any_eq_true, ← mem_ofText_iff]
  constructor
  · rintro ⟨piece, member, refers⟩
    cases piece with
    | plain c => cases refers
    | reference offset name => exact ⟨offset, name, member⟩
  · rintro ⟨offset, name, member⟩
    exact ⟨_, member, rfl⟩

end DataPiece

namespace Line

variable {line : Line} {table : SymbolTable}

/-- The first reference with a problem is the leftmost one whose label is not bound. -/
theorem exists_leftmost {found : Problem} (told : line.itemProblem? table = some found) :
    ∃ offset name, line.text.RefersAt offset name ∧ table.contains name = false ∧
      (∀ earlier other, line.text.RefersAt earlier other → earlier < offset →
        table.contains other = true) ∧
      found = table.undefined line offset name := by
  obtain ⟨before, piece, after, whole, problem, silent⟩ := List.findSome?_eq_some_iff.mp told
  have ordered := (DataPiece.pieces_split none 0 line.text).pairwise
  have within {offset : Nat} {name : Text} : line.text.RefersAt offset name ↔
      .reference offset name ∈ before ++ piece :: after := by
    rw [← whole, DataPiece.mem_ofText_iff]
  rw [← DataPiece.ofText, whole, List.pairwise_filterMap, List.pairwise_append,
    List.pairwise_cons] at ordered
  cases piece with
  | plain c => cases problem
  | reference offset name =>
    rw [DataPiece.problem?] at problem
    split at problem
    · cases problem
    next unbound =>
    cases problem
    refine ⟨offset, name, within.mpr (by simp), by simpa [SymbolTable.contains] using unbound, ?_, rfl⟩
    intro earlier other refers lower
    -- pieces are in the order of their offsets, so an earlier reference is among those in front
    rcases List.mem_append.mp (within.mp refers) with inFront | behind
    · have bound := silent _ inFront
      cases known : table.contains other with
      | true => rfl
      | false =>
        rw [SymbolTable.contains] at known
        rw [DataPiece.problem?, known] at bound
        cases bound
    rcases List.mem_cons.mp behind with same | later
    · cases same
      exact absurd lower (Nat.lt_irrefl _)
    · have higher := ordered.2.1.1 _ later _ rfl _ rfl
      exact absurd lower (Nat.lt_asymm higher)

theorem resolveData_eq_ok_iff :
    (∃ text, line.resolveData table = .ok text) ↔
      ∀ offset name, line.text.RefersAt offset name → table.contains name = true := by
  constructor
  · rintro ⟨text, done⟩ offset name refers
    have bound := (Line.resolvePieces_eq_ok done).1 offset name (DataPiece.mem_ofText_iff.mpr refers)
    rwa [SymbolTable.address?, Option.isSome_map] at bound
  · intro bound
    have answers := line.resolveData_answers table
    cases told : line.itemProblem? table with
    | none =>
      rw [told] at answers
      exact answers.exists_ok
    | some found =>
      obtain ⟨offset, name, refers, unbound, -⟩ := exists_leftmost told
      cases unbound.symm.trans (bound offset name refers)

/-- A data item is resolved if and only if all its references are bound, and fails otherwise at the
leftmost one that is not, with a problem at the colon. Resolving writes the address of its label over
each reference and keeps every other character. No reference is left or comes about, so that the
result stays as it is under any table; and only an item without references is its own result. -/
theorem data_references_replaced (line : Line) (table : SymbolTable) :
    ((∃ text, line.resolveData table = .ok text) ↔
      ∀ offset name, line.text.RefersAt offset name → table.contains name = true) ∧
    ((¬∃ text, line.resolveData table = .ok text) →
      ∃ offset name, line.text.RefersAt offset name ∧ table.contains name = false ∧
        (∀ earlier other, line.text.RefersAt earlier other → earlier < offset →
          table.contains other = true) ∧
        line.resolveData table =
          .error (line.problem (.undefinedLabel name none (table.similar name) .fatal) offset)) ∧
    ∀ text, line.resolveData table = .ok text →
      (∃ references : List (Nat × Text),
        (∀ offset name, (offset, name) ∈ references ↔ line.text.RefersAt offset name) ∧
        Text.Patched 0 line.text
          (references.map fun reference => table.patch reference.1 reference.2) text) ∧
      hasReferences text = false ∧
      (∀ (other : Line) (later : SymbolTable), other.text = text →
        other.resolveData later = .ok text) ∧
      (text = line.text ↔ ¬∃ offset name, line.text.RefersAt offset name) := by
  refine ⟨resolveData_eq_ok_iff, fun failed => ?_, fun text done => ?_⟩
  · have answers := line.resolveData_answers table
    cases told : line.itemProblem? table with
    | none =>
      rw [told] at answers
      exact absurd answers.exists_ok failed
    | some found =>
      obtain ⟨offset, name, refers, unbound, leftmost, rfl⟩ := exists_leftmost told
      rw [told] at answers
      exact ⟨offset, name, refers, unbound, leftmost, answers.eq_error⟩
  · have item := dataWritten_of_resolveData done
    have patched := item.pieces.patched table
    rw [← item.written] at patched
    have settled : hasReferences text = false := by
      rw [hasReferences, item.ofText_eq, List.any_map, List.any_eq_false]
      exact fun c _ => Bool.false_ne_true
    refine ⟨⟨DataPiece.references line.text, fun _ _ => DataPiece.mem_references_iff, patched⟩, settled,
      fun other later same => item.resolveData_eq same later, ?_, ?_⟩
    · rintro rfl refers
      exact Bool.false_ne_true (settled.symm.trans (DataPiece.hasReferences_iff.mpr refers))
    · intro unreferring
      have none' : DataPiece.references line.text = [] := by
        refine List.eq_nil_iff_forall_not_mem.mpr fun (offset, name) member => unreferring ?_
        exact ⟨offset, name, DataPiece.mem_references_iff.mp member⟩
      rw [← DataPiece.references, none'] at patched
      exact patched.eq_self

/-- A reference behind another one is text, and so is one behind a letter of any alphabet. -/
theorem data_references_replaced_adjacent :
    let line := Line.ofContent ":A:B é:A ,:B" 4 "demo" 7
    let table : SymbolTable := ⟨[⟨"A", 4096, none⟩, ⟨"B", 8, none⟩], true⟩
    let other : SymbolTable := ⟨[⟨"A", 4096, none⟩], true⟩
    line.resolveData table = .ok "4096:B é:A ,8" ∧
    hasReferences "4096:B é:A ,8" = false ∧
    (∃ offset name, line.text.RefersAt offset name ∧ other.contains name = false) ∧
    ¬∃ text, line.resolveData other = .ok text := by
  intro line table other
  have done : line.resolveData table = .ok "4096:B é:A ,8" := by rfl
  have failed : ¬∃ text, line.resolveData other = .ok text := by
    rintro ⟨text, done⟩
    cases done
  obtain ⟨-, -, replaced⟩ := data_references_replaced line table
  obtain ⟨-, refused, -⟩ := data_references_replaced line other
  obtain ⟨offset, name, refers, unbound, -⟩ := refused failed
  exact ⟨done, (replaced _ done).2.1, ⟨offset, name, refers, unbound⟩, failed⟩

end Line

end TwoPass
