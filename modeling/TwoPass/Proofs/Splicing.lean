import TwoPass.Proofs.Printing
import TwoPass.Proofs.Span
import TwoPass.Proofs.Substitution
import TwoPass.Proofs.SymbolTable
import TwoPass.Proofs.Text.Patch

/-! Writing operands over those of a line.

Operands are written in from the last to the first. Their spans are in order and do not overlap, so
the result is the line from left to right with these spans replaced. A resolved statement that is
written this way reads as itself: the number stands where the label stood, behind a gap. -/

set_option autoImplicit false

namespace TwoPass

open Scan (Tiled isSpace)

namespace Operand

inductive Replaced (operand : Operand) : Operand → Prop
  | kept : Replaced operand operand
  | resolved (value : Operand.Value) (text : Text) :
    Replaced operand ⟨value, text, operand.start, operand.stop, true⟩

def patch? (operand : Operand) : Option Text.Patch :=
  if operand.resolved then some ⟨operand.start, operand.stop, operand.text⟩ else none

theorem map_span_of_replaced {operands others : List Operand}
    (replaced : List.Forall₂ Replaced operands others) : others.map span = operands.map span := by
  induction replaced with
  | nil => rfl
  | cons first rest ih =>
    rw [List.map_cons, List.map_cons, ih]
    cases first <;> rfl

/-- Writing one operand leaves what stands in front of it, and what was written behind it. -/
theorem splice_append {operand : Operand} {text result : Text} (resolved : operand.resolved = true)
    (ordered : operand.start ≤ operand.stop) (within : operand.stop ≤ text.length) :
    splice (text.take operand.stop ++ result) operand =
      text.take operand.start ++ (operand.text ++ result) := by
  have length : (text.take operand.stop).length = operand.stop := by
    rw [List.length_take, Nat.min_eq_left within]
  rw [splice, if_pos resolved, List.take_append_of_le_length (by rwa [length]), List.take_take,
    Nat.min_eq_left ordered, List.drop_left' length, List.append_assoc]

theorem insertByStart_of_lt {operand : Operand} {operands : List Operand}
    (behind : ∀ other ∈ operands, operand.start < other.start) :
    operand.insertByStart operands = operands ++ [operand] := by
  induction operands with
  | nil => rfl
  | cons first rest ih =>
    rw [List.forall_mem_cons] at behind
    rw [insertByStart, if_neg (Nat.not_le_of_lt behind.1), ih behind.2, List.cons_append]

theorem lastFirst_of_spans {operands : List Operand} {position limit : Nat}
    (ordered : Spans position limit (operands.map span)) : lastFirst operands = operands.reverse := by
  induction operands generalizing position with
  | nil => rfl
  | cons operand rest ih =>
    obtain ⟨-, nonempty, later⟩ := ordered
    have behind : ∀ other ∈ rest.reverse, operand.start < other.start := by
      intro other member
      have within := later.within other.span (List.mem_map_of_mem (List.mem_reverse.mp member))
      exact Nat.lt_of_lt_of_le nonempty within.1
    rw [lastFirst, List.foldr_cons, ← lastFirst, ih later, insertByStart_of_lt behind,
      List.reverse_cons]

/-- Written from the last to the first, operands in order replace their spans from left to right. -/
theorem patched_foldr {text : Text} {operands : List Operand} {position : Nat}
    (ordered : Spans position text.length (operands.map span)) :
    ∃ result, operands.foldr (fun operand text => splice text operand) text =
        text.take position ++ result ∧
      Text.Patched position (text.drop position) (operands.filterMap patch?) result := by
  induction operands generalizing position with
  | nil => exact ⟨text.drop position, (List.take_append_drop position text).symm, .refl _ _⟩
  | cons operand rest ih =>
    obtain ⟨before, nonempty, later⟩ := ordered
    obtain ⟨result, written, patched⟩ := ih later
    have within : operand.stop ≤ text.length := later.le_limit
    have ordered : operand.start ≤ operand.stop := Nat.le_of_lt nonempty
    cases resolved : operand.resolved with
    | false =>
      have upTo : position ≤ operand.stop := Nat.le_trans before ordered
      have kept : patch? operand = none := by rw [patch?, resolved, if_neg Bool.false_ne_true]
      refine ⟨text.slice position operand.stop ++ result, ?_, ?_⟩
      · rw [List.foldr_cons, written, splice, resolved, if_neg Bool.false_ne_true,
          ← Text.take_append_slice text upTo, List.append_assoc]
      · rw [List.filterMap_cons_none kept]
        exact .keep upTo within patched
    | true =>
      have own : patch? operand = some ⟨operand.start, operand.stop, operand.text⟩ := by
        rw [patch?, resolved, if_pos rfl]
      refine ⟨text.slice position operand.start ++ (operand.text ++ result), ?_, ?_⟩
      · rw [List.foldr_cons, written, splice_append resolved ordered within,
          ← Text.take_append_slice text before, List.append_assoc]
      · rw [List.filterMap_cons_some own]
        exact .keep before (Nat.le_trans ordered within) (.replace _ ordered within patched)

end Operand

theorem Scan.Tiled.exists_trimmed {position : Nat} {text : Text} {tokens : List Token}
    (tiled : Tiled position text tokens) (some_token : tokens ≠ []) :
    ∃ lead core trail, text = lead ++ (core ++ trail) ∧ (∀ c ∈ lead, isSpace c = true) ∧
      (∀ c ∈ trail, isSpace c = true) ∧ core ≠ [] ∧ Text.Trimmed core ∧
      ∀ place, ∃ moved, Tiled place core moved ∧
        moved.map Token.lexeme = tokens.map Token.lexeme := by
  induction tiled with
  | spaces gap => exact absurd rfl some_token
  | @token position gap text rest lexeme tokens spaces spelled ends more ih =>
    have visible : ∀ c ∈ text, Text.isBlank c = false := fun c member => (spelled.visible c member).1
    have nonempty := Scan.ne_nil_of_spelled spelled
    cases tokens with
    | nil =>
      cases more with
      | spaces trailing =>
        refine ⟨gap, text, rest, rfl, spaces, trailing, nonempty, ⟨?_, ?_⟩, fun place => ?_⟩
        · exact fun c first => visible c (List.mem_of_head? first)
        · exact fun c last => visible c (List.mem_of_getLast? last)
        · have moved := @Scan.tiled_lexeme place lexeme text [] [] spelled (.inr Scan.apart_nil)
            (.spaces nofun)
          rw [List.append_nil] at moved
          exact ⟨_, moved, rfl⟩
    | cons second others =>
      -- the spaces in front of the second token are inside of the text now
      obtain ⟨lead, core, trail, rfl, leading, trailing, some_core, trimmed, moves⟩ :=
        ih (List.cons_ne_nil second others)
      refine ⟨gap, text ++ (lead ++ core), trail, by simp, spaces, trailing, by simp [nonempty],
        ⟨?_, ?_⟩, fun place => ?_⟩
      · intro c first
        obtain ⟨d, tail, rfl⟩ := List.exists_cons_of_ne_nil nonempty
        cases first
        exact visible c List.mem_cons_self
      · rw [← List.append_assoc]
        exact Text.getLast?_append_visible (fun empty => absurd empty some_core) trimmed.last
      · obtain ⟨moved, tiled, same⟩ := moves (place + text.length + lead.length)
        rw [← List.append_assoc lead] at ends
        refine ⟨_, Scan.tiled_lexeme spelled (ends.imp_right Scan.apart_of_append)
          (Scan.tiled_gap leading tiled), ?_⟩
        rw [List.map_cons, List.map_cons, same]

namespace Operand

variable {text : Text} (other : Text) {tokens moved : List Token}

theorem Derived.exists_moved {operand : Operand} (derived : Derived text tokens operand)
    (same : moved.map Token.lexeme = tokens.map Token.lexeme) :
    ∃ own, Derived other moved own ∧ own.value.placeless = operand.value.placeless := by
  cases derived with
  | register told =>
    obtain ⟨token, rfl, is⟩ := List.map_eq_singleton_iff.mp same
    exact ⟨_, .register (is.trans told), rfl⟩
  | immediate told =>
    obtain ⟨token, rfl, is⟩ := List.map_eq_singleton_iff.mp same
    exact ⟨_, .immediate (is.trans told), rfl⟩
  | label told =>
    obtain ⟨token, rfl, is⟩ := List.map_eq_singleton_iff.mp same
    exact ⟨_, .label (is.trans told), rfl⟩
  | memory opens based closes opens' displaced closes' =>
    simp only [List.map_cons, List.map_nil, List.map_eq_cons_iff, List.map_eq_nil_iff] at same
    obtain ⟨_, _, rfl, is₁, _, _, rfl, is₂, _, _, rfl, is₃, _, _, rfl, is₄, _, _, rfl, is₅, _, _, rfl,
      is₆, rfl⟩ := same
    exact ⟨_, .memory (is₁.trans opens) (is₂.trans based) (is₃.trans closes) (is₄.trans opens')
      (is₅.trans displaced) (is₆.trans closes'), rfl⟩

theorem Continued.exists_moved {operands : List Operand} (continued : Continued text tokens operands)
    (same : moved.map Token.lexeme = tokens.map Token.lexeme) :
    ∃ own, Continued other moved own ∧
      own.map (·.value.placeless) = operands.map (·.value.placeless) := by
  induction continued generalizing moved with
  | nil =>
    cases List.map_eq_nil_iff.mp same
    exact ⟨[], .nil, rfl⟩
  | operand derived rest ih =>
    rw [List.map_append] at same
    obtain ⟨front, back, rfl, sameFront, sameBack⟩ := List.map_eq_append_iff.mp same
    obtain ⟨own, derived', denotes⟩ := derived.exists_moved other sameFront
    obtain ⟨others, rest', denote⟩ := ih sameBack
    exact ⟨own :: others, .operand derived' rest', by rw [List.map_cons, List.map_cons, denotes, denote]⟩
  | comma marked derived rest ih =>
    rw [List.map_cons, List.map_append] at same
    obtain ⟨comma, later, rfl, isComma, sameLater⟩ := List.map_eq_cons_iff.mp same
    obtain ⟨front, back, rfl, sameFront, sameBack⟩ := List.map_eq_append_iff.mp sameLater
    obtain ⟨own, derived', denotes⟩ := derived.exists_moved other sameFront
    obtain ⟨others, rest', denote⟩ := ih sameBack
    exact ⟨own :: others, .comma (isComma.trans marked) derived' rest',
      by rw [List.map_cons, List.map_cons, denotes, denote]⟩

theorem Listed.exists_moved {operands : List Operand} (listed : Listed text tokens operands)
    (same : moved.map Token.lexeme = tokens.map Token.lexeme) :
    ∃ own, Listed other moved own ∧
      own.map (·.value.placeless) = operands.map (·.value.placeless) := by
  cases listed with
  | nil =>
    cases List.map_eq_nil_iff.mp same
    exact ⟨[], .nil, rfl⟩
  | operand derived rest =>
    rw [List.map_append] at same
    obtain ⟨front, back, rfl, sameFront, sameBack⟩ := List.map_eq_append_iff.mp same
    obtain ⟨own, derived', denotes⟩ := derived.exists_moved other sameFront
    obtain ⟨others, rest', denote⟩ := rest.exists_moved other sameBack
    exact ⟨own :: others, .operand derived' rest', by rw [List.map_cons, List.map_cons, denotes, denote]⟩

end Operand

namespace Statement

variable {line : Line} {statement : Statement} {instruction : Instruction}

theorem isContent_of_tiled {text name : Text} {first : Token} {tokens : List Token}
    (trimmed : Text.Trimmed text) (tiled : Tiled 0 text (first :: tokens))
    (word : first.lexeme = .word name) : Line.IsContent text := by
  have uncommented := tiled.uncommented
  cases tiled with
  | @token _ gap written rest lexeme tokens spaces spelled ends more =>
    obtain rfl := Scan.front_eq_nil trimmed spaces
    cases word
    cases spelled with
    | word valid other =>
      rw [List.nil_append] at trimmed uncommented ⊢
      refine isContent_of_name valid ?_ ?_
      · exact Text.getLast?_visible_of_append trimmed.last
      · exact fun member => uncommented (List.mem_append_right _ member)

theorem readsAs_text (read : Statement.read line = .ok statement) :
    ReadsAs line.text statement.mnemonic (statement.operands.map (·.value.placeless)) := by
  obtain ⟨-, first, tokens, operands, name, tiled, isWord, listed, rfl⟩ :=
    Statement.read_eq_ok_iff.mp read
  obtain ⟨lead, core, trail, whole, leading, trailing, -, trimmed, moves⟩ :=
    tiled.exists_trimmed (List.cons_ne_nil first tokens)
  obtain ⟨moved, tiled', same⟩ := moves 0
  obtain ⟨first', tokens', rfl, isWord', same'⟩ := List.map_eq_cons_iff.mp same
  have mnemonic : Text.firstWord line.text = Text.firstWord core := by
    rw [whole]
    exact Text.firstWord_blanks (Scan.blank_of_spaces leading) (Scan.blank_of_spaces trailing)
  have content := isContent_of_tiled trimmed tiled' (isWord'.trans isWord)
  rw [whole]
  refine readsAs_of_content (Scan.blank_of_spaces leading) (Scan.blank_of_spaces trailing) content
    fun line body text => ?_
  obtain ⟨own, listed', denote⟩ := listed.exists_moved line.text same'
  refine ⟨own, Statement.read_eq_ok_iff.mpr ⟨body, first', tokens', own, name, text ▸ tiled',
    isWord'.trans isWord, listed', ?_⟩, denote⟩
  rw [← whole, mnemonic, text]

theorem readsAs_resolved {operand : Operand} {name : Text} {value : Int}
    (read : Statement.read line = .ok statement)
    (known : Instruction.find? statement.mnemonic = some instruction)
    (only : statement.operands = [operand]) (label : operand.value = .label name)
    (spelled : (Lexeme.number value).Spelled (Numeral.decimal value)) :
    ReadsAs (render { statement with operands := [operand.resolvedTo value] }) statement.mnemonic
      [.immediate value] := by
  obtain ⟨lead, core, gap, trail, whole, leading, trailing, single, -, start, stop⟩ :=
    exists_single read known only label
  have parts : statement.text = (lead ++ (statement.mnemonic ++ gap)) ++ ((':' :: name) ++ trail) := by
    rw [Statement.text, line_of_read read, whole, single.whole]
    simp only [List.append_assoc]
  have rendered : render { statement with operands := [operand.resolvedTo value] } =
      lead ++ ((statement.mnemonic ++ (gap ++ Numeral.decimal value)) ++ trail) := by
    rw [single.whole] at stop
    rw [render_resolvedTo parts start (by simpa only [List.append_assoc] using stop)]
    simp only [List.append_assoc]
  have replaced := single.replaced (Numeral.decimal value)
  have denotes : Operand.Value.Spelled (.immediate value) (Numeral.decimal value) := .immediate spelled
  rw [rendered]
  refine readsAs_of_content (Scan.blank_of_spaces leading) (Scan.blank_of_spaces trailing)
    (replaced.isContent denotes) fun line body text => ?_
  rw [← text] at replaced
  obtain ⟨own, told, same⟩ := replaced.read denotes body
  exact ⟨[own], told, by rw [List.map_singleton, same]⟩

theorem readsAs_render {shape : Shape} {table : SymbolTable} {place : Int} {resolved : Statement}
    (read : Statement.read line = .ok statement) (passed : statement.check = .ok shape)
    (real : Instruction.pseudo? statement.mnemonic = none) (built : table.Built)
    (done : statement.resolve table shape place = .ok resolved) :
    ReadsAs resolved.render statement.mnemonic (resolved.operands.map (·.value.placeless)) := by
  obtain ⟨instruction, known, admits⟩ := check_eq_ok_iff.mp passed
  cases resolution_of_check passed done with
  | plain unlabelled =>
    rw [render_of_read read]
    exact readsAs_text read
  | @address operand name symbol only label bound =>
    have short := Numeral.short_of_le_maxAddress (built.address_le bound)
    exact readsAs_resolved read known only label (.ofInt short)
  | @relative operand name symbol only label bound near =>
    have small : (symbol.address - place : Int).natAbs ≤ Machine.maxAddress := by
      have bounds : -2048 ≤ symbol.address - place ∧ symbol.address - place ≤ 2047 :=
        Range.contains_iff.mp near
      rw [Machine.maxAddress]
      omega
    exact readsAs_resolved read known only label (.ofInt (Numeral.short_of_le_maxAddress small))
  | load both register label bound =>
    -- only a pseudo-instruction loads a label
    obtain ⟨member, same⟩ := Instruction.find?_eq_some known
    have shaped := List.mem_of_find?_eq_some admits.shaped
    rw [Instruction.pseudo?, known, Option.bind_some] at real
    rcases Instruction.labelled_shapes member shaped rfl with ⟨wrong, -⟩ | ⟨wrong, -⟩ | ⟨-, stands, -⟩
    · cases wrong
    · cases wrong
    · cases real.symm.trans stands

/-- Operands of a statement that was read are not resolved. Whichever of them are replaced by resolved
ones in their places, the line is written from left to right with exactly those spans replaced, and
without any it stays as it is. A statement that passed its check and is no pseudo-instruction, with
its labels resolved, is written as content that reads as the same mnemonic and operands. -/
theorem render_replaces_spans (read : Statement.read line = .ok statement) :
    (∀ operand ∈ statement.operands, operand.resolved = false) ∧
    (∀ operands, List.Forall₂ Operand.Replaced statement.operands operands →
      Text.Patched 0 line.text (operands.filterMap Operand.patch?)
        (render { statement with operands }) ∧
      ((∀ operand ∈ operands, operand.resolved = false) →
        render { statement with operands } = line.text)) ∧
    ∀ (shape : Shape) (table : SymbolTable) (place : Int) (resolved : Statement),
      statement.check = .ok shape → Instruction.pseudo? statement.mnemonic = none → table.Built →
      statement.resolve table shape place = .ok resolved →
      ReadsAs resolved.render statement.mnemonic
        (resolved.operands.map (·.value.placeless)) := by
  have text : statement.text = line.text := by rw [Statement.text, line_of_read read]
  refine ⟨unresolved_of_read read, fun operands replaced => ⟨?_, fun unresolved => ?_⟩, ?_⟩
  · have ordered := spans_of_read read
    rw [← Operand.map_span_of_replaced replaced] at ordered
    obtain ⟨result, written, patched⟩ := Operand.patched_foldr ordered
    rw [render, Operand.lastFirst_of_spans ordered, List.foldl_reverse]
    have whole : Statement.text { statement with operands } = line.text := text
    rw [whole, written]
    exact patched
  · exact (render_of_unresolved unresolved).trans text
  · intro shape table place resolved passed real built done
    exact readsAs_render read passed real built done

/-- A memory operand becomes a number, and a label behind spaces a distance. -/
theorem render_replaces_spans_shorter :
    let line := Line.ofContent "mov r1, (r31)(-0x8)" 0 "demo" 1
    let target : Operand := ⟨.register 1, "r1", 4, 6, false⟩
    let source : Operand := ⟨.memory 31 (-8) 14, "(r31)(-0x8)", 8, 19, false⟩
    let branch := Line.ofContent "\tbrr  :LOOP " 0 "demo" 2
    let label : Operand := ⟨.label "LOOP", ":LOOP", 6, 11, false⟩
    let table : SymbolTable := ⟨[⟨"LOOP", 4096, none⟩], false⟩
    Statement.read line = .ok ⟨"mov", [target, source], line⟩ ∧
    Text.Patched 0 "mov r1, (r31)(-0x8)" [⟨8, 19, "7"⟩] "mov r1, 7" ∧
    Statement.read branch = .ok ⟨"brr", [label], branch⟩ ∧
    Statement.check ⟨"brr", [label], branch⟩ = .ok [.relative] ∧
    Instruction.pseudo? "brr" = none ∧ table.Built ∧
    Statement.resolve ⟨"brr", [label], branch⟩ table [.relative] 4100 =
      .ok ⟨"brr", [label.resolvedTo (-4)], branch⟩ ∧
    ReadsAs "\tbrr  -4 " "brr" [.immediate (-4)] := by
  intro line target source branch label table
  have read : Statement.read line = .ok ⟨"mov", [target, source], line⟩ := by rfl
  have read' : Statement.read branch = .ok ⟨"brr", [label], branch⟩ := by rfl
  have passed : Statement.check ⟨"brr", [label], branch⟩ = .ok [.relative] := by rfl
  have real : Instruction.pseudo? "brr" = none := by rfl
  have built : table.Built := SymbolTable.Built.empty.define "LOOP" 4096 none
  have resolved : Statement.resolve ⟨"brr", [label], branch⟩ table [.relative] 4100 =
      .ok ⟨"brr", [label.resolvedTo (-4)], branch⟩ := by rfl
  obtain ⟨-, splices, -⟩ := render_replaces_spans read
  obtain ⟨-, -, reads⟩ := render_replaces_spans read'
  exact ⟨read, (splices _ (.cons .kept (.cons (.resolved (.immediate 7) "7") .nil))).1, read', passed,
    real, built, resolved, reads _ table 4100 _ passed real built resolved⟩

end Statement

end TwoPass
