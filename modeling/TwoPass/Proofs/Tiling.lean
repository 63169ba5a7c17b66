import TwoPass.Proofs.Spelling

/-! Texts as sequences of tokens.

A text is tiled by tokens if each of them is a spelling of its lexeme, stands where its offsets say
and is as long as it can be, with nothing but spaces between them and after the last. That is what
a scan that comes to the end of a text finds, and it finds nothing else. -/

set_option autoImplicit false

namespace TwoPass

namespace Scan

/-- The text from an offset on consists of these tokens and of spaces. -/
inductive Tiled : Nat → Text → List Token → Prop where
  | spaces {position : Nat} {gap : Text} : (∀ c ∈ gap, isSpace c = true) → Tiled position gap []
  | token {position : Nat} {gap text rest : Text} {lexeme : Lexeme} {tokens : List Token} :
      (∀ c ∈ gap, isSpace c = true) → lexeme.Spelled text → (lexeme.isMark = true ∨ Apart rest) →
      Tiled (position + gap.length + text.length) rest tokens →
      Tiled position (gap ++ (text ++ rest))
        (⟨lexeme, position + gap.length, position + gap.length + text.length, text⟩ :: tokens)

def endAt (position : Nat) : Token := ⟨.endOfLine, position, position, []⟩

def scanAt (position : Nat) (text : Text) : Scan := scanFrom text.length position text

theorem ne_nil_of_spelled {lexeme : Lexeme} {text : Text} (spelled : lexeme.Spelled text) :
    text ≠ [] := by
  obtain ⟨c, tail, rfl, -⟩ := cut_append spelled (.inr apart_nil)
  exact List.cons_ne_nil c tail

theorem length_rest_of_cut {c : Char} {rest : Text} {found : Cut} (taken : cut c rest = .ok found) :
    found.rest.length ≤ rest.length := by
  have whole := congrArg List.length (append_of_cut taken)
  have some_text := List.length_pos_iff.mpr (ne_nil_of_spelled (cut_spelled taken).1)
  simp only [List.length_append, List.length_cons] at whole
  omega

theorem scanFrom_room {room other position : Nat} {text : Text} (enough : text.length ≤ room)
    (enough' : text.length ≤ other) :
    scanFrom room position text = scanFrom other position text := by
  -- each step uses up one unit of room and at least one character
  induction room generalizing other position text with
  | zero =>
    have empty : text = [] := List.length_eq_zero_iff.mp (Nat.le_zero.mp enough)
    subst empty
    cases other <;> rfl
  | succ room ih =>
    cases text with
    | nil => cases other <;> rfl
    | cons c rest =>
      cases other with
      | zero => cases enough'
      | succ other =>
        simp only [List.length_cons, Nat.add_le_add_iff_right] at enough enough'
        simp only [scanFrom]
        split
        · exact ih enough enough'
        · split
          · rfl
          · next found taken =>
            have shorter := length_rest_of_cut taken
            rw [ih (Nat.le_trans shorter enough) (Nat.le_trans shorter enough')]

theorem scanAt_nil (position : Nat) : scanAt position [] = ⟨[], .ok (endAt position)⟩ := rfl

theorem scanAt_space {position : Nat} {c : Char} {rest : Text} (space : isSpace c = true) :
    scanAt position (c :: rest) = scanAt (position + 1) rest := by
  simp [scanAt, scanFrom, space]

theorem scanAt_fault {position : Nat} {c : Char} {rest : Text} {fault : Fault}
    (visible : isSpace c = false) (refused : cut c rest = .error fault) :
    scanAt position (c :: rest) = ⟨[], .error (fault, position)⟩ := by
  simp [scanAt, scanFrom, visible, refused]

theorem scanAt_cut {position : Nat} {c : Char} {rest : Text} {found : Cut}
    (visible : isSpace c = false) (taken : cut c rest = .ok found) :
    scanAt position (c :: rest) = (scanAt (position + found.text.length) found.rest).cons
      ⟨found.lexeme, position, position + found.text.length, found.text⟩ := by
  have room : scanFrom rest.length (position + found.text.length) found.rest =
      scanFrom found.rest.length (position + found.text.length) found.rest :=
    scanFrom_room (length_rest_of_cut taken) (Nat.le_refl found.rest.length)
  simp [scanAt, scanFrom, visible, taken, room]

theorem scanAt_gap {position : Nat} {gap rest : Text} (spaces : ∀ c ∈ gap, isSpace c = true) :
    scanAt position (gap ++ rest) = scanAt (position + gap.length) rest := by
  induction gap generalizing position with
  | nil => rfl
  | cons c more ih =>
    rw [List.cons_append, scanAt_space (spaces c List.mem_cons_self),
      ih fun d member => spaces d (List.mem_cons_of_mem c member), List.length_cons]
    congr 1
    omega

theorem scanAt_lexeme {position : Nat} {lexeme : Lexeme} {text rest : Text}
    (spelled : lexeme.Spelled text) (ends : lexeme.isMark = true ∨ Apart rest) :
    scanAt position (text ++ rest) = (scanAt (position + text.length) rest).cons
      ⟨lexeme, position, position + text.length, text⟩ := by
  obtain ⟨c, tail, rfl, visible, taken⟩ := cut_append spelled ends
  exact scanAt_cut visible taken

theorem scanAt_of_tiled {position : Nat} {text : Text} {tokens : List Token}
    (tiled : Tiled position text tokens) :
    scanAt position text = ⟨tokens, .ok (endAt (position + text.length))⟩ := by
  induction tiled with
  | @spaces position gap spaces =>
    have scanned : scanAt position (gap ++ []) = scanAt (position + gap.length) [] :=
      scanAt_gap spaces
    rwa [List.append_nil, scanAt_nil] at scanned
  | @token position gap text rest lexeme tokens spaces spelled ends more ih =>
    rw [scanAt_gap spaces, scanAt_lexeme spelled ends, ih, cons]
    simp only [List.length_append, Nat.add_assoc]

theorem tiled_lexeme {position : Nat} {lexeme : Lexeme} {text rest : Text} {tokens : List Token}
    (spelled : lexeme.Spelled text) (ends : lexeme.isMark = true ∨ Apart rest)
    (tiled : Tiled (position + text.length) rest tokens) :
    Tiled position (text ++ rest)
      (⟨lexeme, position, position + text.length, text⟩ :: tokens) :=
  @Tiled.token position [] _ _ _ _ (by simp) spelled ends tiled

theorem tiled_space {position : Nat} {c : Char} {rest : Text} {tokens : List Token}
    (space : isSpace c = true) (tiled : Tiled (position + 1) rest tokens) :
    Tiled position (c :: rest) tokens := by
  have widened : ∀ gap : Text, (∀ d ∈ gap, isSpace d = true) → ∀ d ∈ c :: gap, isSpace d = true :=
    fun gap spaces => List.forall_mem_cons.mpr ⟨space, spaces⟩
  cases tiled with
  | spaces gap => exact .spaces (widened _ gap)
  | @token _ gap text after lexeme tokens spaces spelled ends more =>
    have moved : position + 1 + gap.length = position + (c :: gap).length := by
      rw [List.length_cons]
      omega
    rw [moved] at more ⊢
    exact .token (widened gap spaces) spelled ends more

theorem tiled_gap {position : Nat} {gap rest : Text} {tokens : List Token}
    (spaces : ∀ c ∈ gap, isSpace c = true) (tiled : Tiled (position + gap.length) rest tokens) :
    Tiled position (gap ++ rest) tokens := by
  induction gap generalizing position with
  | nil => exact tiled
  | cons c more ih =>
    rw [List.forall_mem_cons] at spaces
    refine tiled_space spaces.1 (ih spaces.2 ?_)
    rw [List.length_cons, Nat.add_comm more.length 1, ← Nat.add_assoc] at tiled
    exact tiled

theorem tiled_of_scanAt {position : Nat} {text : Text} {tokens : List Token} {ending : Token}
    (scanned : scanAt position text = ⟨tokens, .ok ending⟩) : Tiled position text tokens := by
  -- a cut takes several characters at once, so the induction is on the length
  induction length : text.length using Nat.strong_induction_on generalizing position text tokens with
  | _ size ih =>
    cases text with
    | nil =>
      cases scanned
      exact .spaces (by simp)
    | cons c rest =>
      cases space : isSpace c with
      | true =>
        rw [scanAt_space space] at scanned
        exact tiled_space space (ih rest.length (by simp [← length]) scanned rfl)
      | false =>
        cases taken : cut c rest with
        | error fault =>
          rw [scanAt_fault space taken] at scanned
          cases scanned
        | ok found =>
          rw [scanAt_cut space taken] at scanned
          obtain ⟨spelled, ends⟩ := cut_spelled taken
          have shorter : found.rest.length < size := by
            have := length_rest_of_cut taken
            simp only [List.length_cons] at length
            omega
          cases later : scanAt (position + found.text.length) found.rest with
          | mk others stop =>
            rw [later] at scanned
            cases scanned
            have more := ih _ shorter later rfl
            have first := tiled_lexeme spelled ends more
            rwa [append_of_cut taken] at first

theorem scanAt_eq_ok_iff {position : Nat} {text : Text} {tokens : List Token} {ending : Token} :
    scanAt position text = ⟨tokens, .ok ending⟩ ↔
      Tiled position text tokens ∧ ending = endAt (position + text.length) := by
  constructor
  · intro scanned
    have tiled := tiled_of_scanAt scanned
    have again := (scanAt_of_tiled tiled).symm.trans scanned
    cases again
    exact ⟨tiled, rfl⟩
  · rintro ⟨tiled, rfl⟩
    exact scanAt_of_tiled tiled

/-- The tokens of a scan that stopped tile the text up to the character from which none can be cut. -/
theorem tiled_of_scanAt_error {position offset : Nat} {text : Text} {tokens : List Token} {fault : Fault}
    (stopped : scanAt position text = ⟨tokens, .error (fault, offset)⟩) :
    ∃ front c rest, text = front ++ c :: rest ∧ Tiled position front tokens ∧
      offset = position + front.length ∧ isSpace c = false ∧ cut c rest = .error fault := by
  -- on the length, since a token takes more than one character off the text
  induction length : text.length using Nat.strong_induction_on generalizing position text tokens with
  | _ size ih =>
    cases text with
    | nil => cases stopped
    | cons c rest =>
      cases space : isSpace c with
      | true =>
        rw [scanAt_space space] at stopped
        obtain ⟨front, d, more, rfl, tiled, rfl, visible, refused⟩ :=
          ih rest.length (by simp [← length]) stopped rfl
        refine ⟨c :: front, d, more, rfl, tiled_space space tiled, ?_, visible, refused⟩
        rw [List.length_cons]
        omega
      | false =>
        cases taken : cut c rest with
        | error other =>
          rw [scanAt_fault space taken] at stopped
          cases stopped
          exact ⟨[], c, rest, rfl, .spaces nofun, rfl, space, taken⟩
        | ok found =>
          rw [scanAt_cut space taken] at stopped
          obtain ⟨spelled, ends⟩ := cut_spelled taken
          have shorter : found.rest.length < size := by
            have := length_rest_of_cut taken
            simp only [List.length_cons] at length
            omega
          cases later : scanAt (position + found.text.length) found.rest with
          | mk others stop =>
            rw [later] at stopped
            cases stopped
            obtain ⟨front, d, more, left, tiled, rfl, visible, refused⟩ := ih _ shorter later rfl
            rw [left] at ends
            refine ⟨found.text ++ front, d, more, ?_,
              tiled_lexeme spelled (ends.imp_right apart_of_append) tiled, ?_, visible, refused⟩
            · rw [List.append_assoc, ← left, append_of_cut taken]
            · rw [List.length_append, Nat.add_assoc]

theorem exists_tiled_tokens (position : Nat) (text : Text) :
    ∃ front rest, text = front ++ rest ∧ Tiled position front (scanAt position text).tokens := by
  cases scanned : scanAt position text with
  | mk tokens ending =>
    cases ending with
    | ok token => exact ⟨text, [], (List.append_nil text).symm, tiled_of_scanAt scanned⟩
    | error stop =>
      obtain ⟨front, c, rest, whole, tiled, -⟩ := tiled_of_scanAt_error scanned
      exact ⟨front, c :: rest, whole, tiled⟩

end Scan

end TwoPass
