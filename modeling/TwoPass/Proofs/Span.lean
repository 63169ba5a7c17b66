import TwoPass.Proofs.Written

/-! Where tokens and operands stand in a text.

The spans of tokens follow one another without overlap, and each token is what the text holds
between its offsets. An operand spans its tokens from the first to the last, so the spans of operands
follow one another as well. -/

set_option autoImplicit false

namespace TwoPass

/-- Spans between two offsets, each behind the one before it and none of them empty. -/
def Spans (position limit : Nat) : List (Nat × Nat) → Prop
  | [] => position ≤ limit
  | (start, stop) :: rest => position ≤ start ∧ start < stop ∧ Spans stop limit rest

def Token.span (token : Token) : Nat × Nat := (token.start, token.stop)

def Operand.span (operand : Operand) : Nat × Nat := (operand.start, operand.stop)

namespace Spans

variable {position limit : Nat} {spans : List (Nat × Nat)}

theorem le_limit (ordered : Spans position limit spans) : position ≤ limit := by
  induction spans generalizing position with
  | nil => exact ordered
  | cons span rest ih =>
    obtain ⟨before, nonempty, later⟩ := ordered
    have := ih later
    omega

theorem of_le {earlier : Nat} (ordered : Spans position limit spans) (le : earlier ≤ position) :
    Spans earlier limit spans := by
  cases spans with
  | nil => exact Nat.le_trans le ordered
  | cons span rest =>
    obtain ⟨before, nonempty, later⟩ := ordered
    exact ⟨Nat.le_trans le before, nonempty, later⟩

theorem within (ordered : Spans position limit spans) :
    ∀ span ∈ spans, position ≤ span.1 ∧ span.2 ≤ limit := by
  induction spans generalizing position with
  | nil => simp
  | cons span rest ih =>
    obtain ⟨before, nonempty, later⟩ := ordered
    rw [List.forall_mem_cons]
    refine ⟨⟨before, later.le_limit⟩, fun other member => ?_⟩
    have bounds := ih later other member
    omega

theorem nonempty (ordered : Spans position limit spans) : ∀ span ∈ spans, span.1 < span.2 := by
  induction spans generalizing position with
  | nil => simp
  | cons span rest ih =>
    obtain ⟨-, nonempty, later⟩ := ordered
    exact List.forall_mem_cons.mpr ⟨nonempty, ih later⟩

theorem pairwise (ordered : Spans position limit spans) :
    spans.Pairwise fun earlier later => earlier.1 < later.1 ∧ earlier.2 ≤ later.1 := by
  induction spans generalizing position with
  | nil => exact .nil
  | cons span rest ih =>
    obtain ⟨-, nonempty, later⟩ := ordered
    refine .cons (fun other member => ?_) (ih later)
    have behind := (later.within other member).1
    exact ⟨by omega, behind⟩

end Spans

namespace Scan.Tiled

variable {position : Nat} {text : Text} {tokens : List Token}

theorem spans (tiled : Tiled position text tokens) :
    Spans position (position + text.length) (tokens.map Token.span) := by
  induction tiled with
  | spaces gap => exact Nat.le_add_right _ _
  | @token position gap text rest lexeme tokens spaces spelled ends more ih =>
    have nonempty := List.length_pos_iff.mpr (ne_nil_of_spelled spelled)
    have limit : position + (gap ++ (text ++ rest)).length =
        position + gap.length + text.length + rest.length := by
      simp only [List.length_append]
      omega
    rw [limit]
    exact ⟨Nat.le_add_right _ _, Nat.lt_add_of_pos_right nonempty, ih⟩

theorem slice_eq {whole : Text} (tiled : Tiled position text tokens)
    (there : whole.drop position = text) :
    ∀ token ∈ tokens, whole.slice token.start token.stop = token.text := by
  induction tiled with
  | spaces gap => simp
  | @token position gap text rest lexeme tokens spaces spelled ends more ih =>
    have own : whole.drop (position + gap.length) = text ++ rest := by
      rw [← List.drop_drop, there, List.drop_left]
    rw [List.forall_mem_cons]
    refine ⟨Operand.slice_of_drop own, ih ?_⟩
    rw [← List.drop_drop, own, List.drop_left]

end Scan.Tiled

namespace Operand

variable {text : Text} {position limit : Nat}

theorem Derived.span {own rest : List Token} {operand : Operand}
    (derived : Derived text own operand)
    (ordered : Spans position limit ((own ++ rest).map Token.span)) :
    position ≤ operand.start ∧ operand.start < operand.stop ∧
      Spans operand.stop limit (rest.map Token.span) := by
  cases derived with
  | register | immediate | label => exact ordered
  | memory =>
    obtain ⟨before, opening, toBase, base, toInner, inner, toOuter, outer, toPlace, place, toClosing,
      closing, later⟩ := ordered
    exact ⟨before, by dsimp only; omega, later⟩

theorem Continued.spans {tokens : List Token} {operands : List Operand}
    (continued : Continued text tokens operands)
    (ordered : Spans position limit (tokens.map Token.span)) :
    Spans position limit (operands.map Operand.span) := by
  induction continued generalizing position with
  | nil => exact ordered
  | operand derived rest ih =>
    obtain ⟨before, nonempty, later⟩ := derived.span ordered
    exact ⟨before, nonempty, ih later⟩
  | comma marked derived rest ih =>
    -- the comma stands in the gap in front of the operand
    obtain ⟨toComma, comma, others⟩ := ordered
    obtain ⟨before, nonempty, later⟩ := derived.span others
    exact ⟨by omega, nonempty, ih later⟩

end Operand

theorem Statement.spans_of_read {line : Line} {statement : Statement}
    (read : Statement.read line = .ok statement) :
    Spans 0 line.text.length (statement.operands.map Operand.span) := by
  obtain ⟨-, first, tokens, operands, name, tiled, -, listed, rfl⟩ :=
    Statement.read_eq_ok_iff.mp read
  obtain ⟨before, nonempty, later⟩ := tiled.spans
  rw [Nat.zero_add] at later
  exact (listed.continued.spans later).of_le (Nat.zero_le _)

end TwoPass
