import TwoPass.Proofs.Resolution

/-! Data items, cut into characters that stand for themselves and references.

The pieces of an item make up its text. Once references are replaced by numbers there are none left:
digits belong to words and begin no name, so no reference can come about beside one. -/

set_option autoImplicit false

namespace TwoPass

namespace DataPiece

def source : DataPiece → Text
  | .plain c => [c]
  | .reference _ name => ":" ++ name

def written (address : Text → Nat) : DataPiece → Text
  | .plain c => [c]
  | .reference _ name => Numeral.decimalNat (address name)

/-- The pieces of a text from an offset on; `blocked` says whether a reference may not begin there
because of the character in front. -/
inductive Pieces : (blocked : Bool) → (offset : Nat) → Text → List DataPiece → Prop
  | nil {blocked : Bool} {offset : Nat} : Pieces blocked offset [] []
  | plain {blocked : Bool} {offset : Nat} {c : Char} {rest : Text} {pieces : List DataPiece}
    (other : ¬(c = ':' ∧ blocked = false ∧ Text.startsName rest = true))
    (more : Pieces (blocksReference (some c)) (offset + 1) rest pieces) :
    Pieces blocked offset (c :: rest) (.plain c :: pieces)
  | reference {offset : Nat} {name rest : Text} {pieces : List DataPiece}
    (valid : Text.isName name = true) (apart : Scan.Apart rest)
    (more : Pieces true (offset + 1 + name.length) rest pieces) :
    Pieces false offset (':' :: (name ++ rest)) (.reference offset name :: pieces)

theorem getLast?_cons_or (c : Char) (rest : Text) (before : Option Char) :
    (c :: rest).getLast?.or before = rest.getLast?.or (some c) := by
  rw [List.getLast?_cons]
  cases rest.getLast? <;> rfl

theorem split_skipped {skipped rest : Text} (before : Option Char) (offset : Nat) :
    split before skipped.length offset (skipped ++ rest) =
      split (skipped.getLast?.or before) 0 (offset + skipped.length) rest := by
  induction skipped generalizing before offset with
  | nil => rfl
  | cons c more ih =>
    have step : split before (c :: more).length offset (c :: more ++ rest) =
        split (some c) more.length (offset + 1) (more ++ rest) := rfl
    rw [step, ih, getLast?_cons_or, List.length_cons, Nat.add_right_comm, ← Nat.add_assoc]

/-- No reference begins right behind a name or a number. -/
theorem blocksReference_of_word {word : Text} (nonempty : word ≠ [])
    (named : ∀ c ∈ word, Text.isNameChar c = true) (before : Option Char) :
    blocksReference (word.getLast?.or before) = true := by
  rw [List.getLast?_eq_some_getLast nonempty, Option.some_or, blocksReference]
  rw [Text.isWordCharacter_of_isNameChar (named _ (List.getLast_mem nonempty)), Bool.or_true]

theorem blocksReference_of_name {name : Text} (valid : Text.isName name = true)
    (before : Option Char) : blocksReference (name.getLast?.or before) = true := by
  have nonempty : name ≠ [] := by
    rintro rfl
    cases valid
  exact blocksReference_of_word nonempty (Scan.isNameChar_of_mem_name valid) before

theorem split_reference {before : Option Char} {rest : Text} (free : blocksReference before = false)
    (starts : Text.startsName rest = true) (offset : Nat) :
    split before 0 offset (':' :: rest) =
      .reference offset (rest.takeWhile Text.isNameChar) ::
        split (some ':') (rest.takeWhile Text.isNameChar).length (offset + 1) rest := by
  rw [split]
  simp [free, starts]

theorem split_plain {before : Option Char} {c : Char} {rest : Text}
    (other : ¬(c = ':' ∧ blocksReference before = false ∧ Text.startsName rest = true))
    (offset : Nat) :
    split before 0 offset (c :: rest) = .plain c :: split (some c) 0 (offset + 1) rest := by
  rw [split]
  have refused : ¬((c == ':' && !blocksReference before && Text.startsName rest) = true) := by
    simpa [and_assoc] using other
  rw [if_neg refused]

theorem pieces_split (before : Option Char) (offset : Nat) (text : Text) :
    Pieces (blocksReference before) offset text (split before 0 offset text) := by
  match text with
  | [] => exact .nil
  | c :: rest =>
    by_cases refers : c = ':' ∧ blocksReference before = false ∧ Text.startsName rest = true
    · obtain ⟨rfl, free, starts⟩ := refers
      -- the cut goes on behind the name, where the last character of the name is in front
      have valid := Scan.isName_takeWhile starts
      have shorter := List.length_dropWhile_le Text.isNameChar rest
      have more := pieces_split ((rest.takeWhile Text.isNameChar).getLast?.or (some ':'))
        (offset + 1 + (rest.takeWhile Text.isNameChar).length) (rest.dropWhile Text.isNameChar)
      rw [blocksReference_of_name valid, ← split_skipped,
        List.takeWhile_append_dropWhile] at more
      rw [split_reference free starts, free]
      have whole := Pieces.reference valid (Scan.apart_dropWhile rest) more
      rwa [List.takeWhile_append_dropWhile] at whole
    · rw [split_plain refers]
      exact .plain refers (pieces_split (some c) (offset + 1) rest)
termination_by text.length

structure Rewrites (write : DataPiece → Text) : Prop where
  plain : ∀ c, write (.plain c) = [c]
  ne_nil : ∀ offset name, Text.isName name = true → write (.reference offset name) ≠ []
  visible : ∀ offset name, Text.isName name = true →
    ∀ c ∈ write (.reference offset name), Text.isBlank c = false ∧ c ≠ ';'

namespace Pieces

variable {blocked : Bool} {offset : Nat} {text : Text} {pieces : List DataPiece}

theorem flatMap_source (cut : Pieces blocked offset text pieces) : pieces.flatMap source = text := by
  induction cut with
  | nil => rfl
  | plain other more ih => rw [List.flatMap_cons, ih]; rfl
  | reference valid apart more ih =>
    rw [List.flatMap_cons, ih]
    simp [source]

variable {address : Text → Nat}

theorem startsName_of_written (cut : Pieces blocked offset text pieces)
    (starts : Text.startsName (pieces.flatMap (written address)) = true) :
    Text.startsName text = true := by
  cases cut with
  | nil => cases starts
  | plain other more => exact starts
  | @reference offset name rest pieces valid apart more =>
    obtain ⟨d, digits, number⟩ :=
      List.exists_cons_of_ne_nil (Numeral.decimalNat_ne_nil (address name))
    have digit := Numeral.isDigit_of_mem_decimalNat (number ▸ List.mem_cons_self)
    have begins : Text.isNameStart d = true := by
      rw [List.flatMap_cons, written, number] at starts
      exact starts
    cases begins.symm.trans (Text.not_isNameStart_of_isDigit digit)

section
variable {write : DataPiece → Text}

theorem flatMap_eq_nil (cut : Pieces blocked offset text pieces) (rewrites : Rewrites write)
    (empty : pieces.flatMap write = []) : text = [] := by
  cases cut with
  | nil => rfl
  | plain other more =>
    rw [List.flatMap_cons, rewrites.plain] at empty
    cases empty
  | @reference offset name rest pieces valid apart more =>
    rw [List.flatMap_cons, List.append_eq_nil_iff] at empty
    exact absurd empty.1 (rewrites.ne_nil offset name valid)

theorem getLast?_flatMap (cut : Pieces blocked offset text pieces) (rewrites : Rewrites write)
    (visible : ∀ c, text.getLast? = some c → Text.isBlank c = false) :
    ∀ c, (pieces.flatMap write).getLast? = some c → Text.isBlank c = false := by
  induction cut with
  | nil => exact visible
  | @plain blocked offset c rest pieces other more ih =>
    rw [List.flatMap_cons, rewrites.plain]
    refine Text.getLast?_append_visible ?_ (ih (@Text.getLast?_visible_of_append [c] rest visible))
    intro empty
    -- nothing is written for the rest only if there is no rest
    rw [more.flatMap_eq_nil rewrites empty] at visible
    exact visible
  | @reference offset name rest pieces valid apart more ih =>
    refine Text.getLast?_append_visible ?_
      (ih (@Text.getLast?_visible_of_append (':' :: name) rest visible))
    intro empty c last
    exact (rewrites.visible offset name valid c (List.mem_of_getLast? last)).1

theorem uncommented_flatMap (cut : Pieces blocked offset text pieces) (rewrites : Rewrites write)
    (uncommented : ';' ∉ text) : ';' ∉ pieces.flatMap write := by
  induction cut with
  | nil => exact uncommented
  | @plain blocked offset c rest pieces other more ih =>
    rw [List.flatMap_cons, rewrites.plain]
    simp only [List.mem_cons, not_or] at uncommented
    simp [uncommented.1, ih uncommented.2]
  | @reference offset name rest pieces valid apart more ih =>
    simp only [List.mem_cons, List.mem_append, not_or] at uncommented
    rw [List.flatMap_cons, List.mem_append, not_or]
    exact ⟨fun member => (rewrites.visible offset name valid ';' member).2 rfl, ih uncommented.2.2⟩

/-- Content does not begin with a colon, so its first character is kept. -/
theorem isContent_flatMap (cut : Pieces blocked offset text pieces) (rewrites : Rewrites write)
    (content : Line.IsContent text) : Line.IsContent (pieces.flatMap write) := by
  obtain ⟨c, rest, whole, notComment, notDirective, notLabel⟩ :=
    Line.Body.ofText_eq_content_iff.mp content.body
  refine content.of_head? ?_ (cut.getLast?_flatMap rewrites content.trimmed.last)
    (cut.uncommented_flatMap rewrites content.uncommented)
  subst whole
  cases cut with
  | plain other more => rw [List.flatMap_cons, rewrites.plain]; rfl
  | reference => exact absurd rfl notLabel

end

theorem mem_written (cut : Pieces blocked offset text pieces) {c : Char}
    (member : c ∈ pieces.flatMap (written address)) : c ∈ text ∨ c.isDigit = true := by
  rw [← cut.flatMap_source]
  obtain ⟨piece, inside, member⟩ := List.mem_flatMap.mp member
  cases piece with
  | plain d => exact .inl (List.mem_flatMap.mpr ⟨_, inside, member⟩)
  | reference place name => exact .inr (Numeral.isDigit_of_mem_decimalNat member)

end Pieces

theorem rewrites_written (address : Text → Nat) : Rewrites (written address) where
  plain _ := rfl
  ne_nil _ _ _ := Numeral.decimalNat_ne_nil _
  visible _ _ _ c member := by
    have digit := Numeral.isDigit_of_mem_decimalNat member
    refine ⟨Text.not_isBlank_of_isNameChar (Text.isNameChar_of_isDigit digit), ?_⟩
    rintro rfl
    cases digit

theorem split_digits {digits : Text} (numeric : ∀ c ∈ digits, c.isDigit = true) (rest : Text)
    (before : Option Char) (offset : Nat) :
    split before 0 offset (digits ++ rest) =
      digits.map .plain ++ split (digits.getLast?.or before) 0 (offset + digits.length) rest := by
  induction digits generalizing before offset with
  | nil => rfl
  | cons c more ih =>
    obtain ⟨digit, others⟩ := List.forall_mem_cons.mp numeric
    have other : ¬(c = ':' ∧ blocksReference before = false ∧
        Text.startsName (more ++ rest) = true) := by
      rintro ⟨rfl, -⟩
      cases digit
    rw [List.cons_append, split_plain other, ih others, getLast?_cons_or, List.length_cons,
      Nat.add_right_comm, ← Nat.add_assoc]
    rfl

theorem Pieces.split_written {blocked : Bool} {offset : Nat} {text : Text} {pieces : List DataPiece}
    (cut : Pieces blocked offset text pieces) (address : Text → Nat) (before : Option Char)
    (front : blocksReference before = blocked) (place : Nat) :
    split before 0 place (pieces.flatMap (written address)) =
      (pieces.flatMap (written address)).map .plain := by
  induction cut generalizing before place with
  | nil => rfl
  | @plain blocked offset c rest pieces other more ih =>
    have still : ¬(c = ':' ∧ blocksReference before = false ∧
        Text.startsName (pieces.flatMap (written address)) = true) := by
      rintro ⟨colon, free, starts⟩
      exact other ⟨colon, front.symm.trans free, more.startsName_of_written starts⟩
    rw [List.flatMap_cons, written, List.singleton_append, split_plain still, ih _ rfl]
    rfl
  | @reference offset name rest pieces valid apart more ih =>
    have numeric : ∀ c ∈ Numeral.decimalNat (address name), c.isDigit = true :=
      fun c member => Numeral.isDigit_of_mem_decimalNat member
    have blocks := blocksReference_of_word (Numeral.decimalNat_ne_nil (address name))
      (fun c member => Text.isNameChar_of_isDigit (numeric c member)) before
    -- behind the last digit no reference begins, just as behind the last character of the name
    rw [List.flatMap_cons, written, split_digits numeric, ih _ blocks, List.map_append]

end DataPiece

structure Line.DataWritten (address? : Text → Option Nat) (line : Line) (text : Text) : Prop where
  pieces : DataPiece.Pieces false 0 line.text (DataPiece.ofText line.text)
  bound : ∀ offset name, .reference offset name ∈ DataPiece.ofText line.text →
    (address? name).isSome
  written : text = (DataPiece.ofText line.text).flatMap
    (DataPiece.written fun name => (address? name).getD 0)

theorem Line.resolvePieces_eq_ok {line : Line} {table : SymbolTable} {pieces : List DataPiece}
    {text : Text} (done : line.resolvePieces table pieces = .ok text) :
    (∀ offset name, .reference offset name ∈ pieces → (table.address? name).isSome) ∧
      text = pieces.flatMap (DataPiece.written fun name => (table.address? name).getD 0) := by
  induction pieces generalizing text with
  | nil =>
    cases done
    exact ⟨by simp, rfl⟩
  | cons piece rest ih =>
    obtain ⟨first, resolved, others⟩ := Except.bind_eq_ok_iff.mp done
    obtain ⟨more, later, result⟩ := Except.bind_eq_ok_iff.mp others
    cases result
    obtain ⟨bound, rfl⟩ := ih later
    cases piece with
    | plain c =>
      cases resolved
      exact ⟨by simpa using bound, rfl⟩
    | reference offset name =>
      obtain ⟨symbol, looked, result⟩ := Except.bind_eq_ok_iff.mp resolved
      cases result
      have found := SymbolTable.address?_of_find? (SymbolTable.lookup_eq_ok_iff.mp looked)
      refine ⟨?_, ?_⟩
      · intro place other member
        rcases List.mem_cons.mp member with same | later
        · cases same
          rw [found]
          rfl
        · exact bound place other later
      · simp [DataPiece.written, found]

theorem Line.dataWritten_of_resolveData {line : Line} {table : SymbolTable} {text : Text}
    (done : line.resolveData table = .ok text) : line.DataWritten table.address? text :=
  ⟨DataPiece.pieces_split none 0 line.text, (Line.resolvePieces_eq_ok done).1,
    (Line.resolvePieces_eq_ok done).2⟩

theorem Line.resolvePieces_plain (line : Line) (table : SymbolTable) (text : Text) :
    line.resolvePieces table (text.map .plain) = .ok text := by
  induction text with
  | nil => rfl
  | cons c rest ih =>
    rw [List.map_cons, Line.resolvePieces, ih]
    rfl

namespace Line.DataWritten

variable {address? : Text → Option Nat} {line : Line} {text : Text}

theorem isContent (item : line.DataWritten address? text) (content : IsContent line.text) :
    IsContent text := by
  rw [item.written]
  exact item.pieces.isContent_flatMap (DataPiece.rewrites_written _) content

/-- What is written for an item holds no reference. -/
theorem ofText_eq (item : line.DataWritten address? text) : DataPiece.ofText text = text.map .plain := by
  have plain := item.pieces.split_written (fun name => (address? name).getD 0) none rfl 0
  rwa [← item.written] at plain

theorem resolveData_eq (item : line.DataWritten address? text) {other : Line}
    (same : other.text = text) (table : SymbolTable) : other.resolveData table = .ok text := by
  rw [resolveData, same, item.ofText_eq, resolvePieces_plain]

end Line.DataWritten

end TwoPass
