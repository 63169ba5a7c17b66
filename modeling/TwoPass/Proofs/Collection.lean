import TwoPass.Run
import TwoPass.Proofs.Layout
import TwoPass.Proofs.Recording
import TwoPass.Proofs.SymbolTable

/-! The first pass: collecting the labels.

Diagnostics are only ever added. So where the pass ends without a fatal one no step has met a fatal
problem, and the table is made of the labels alone, one insertion each. -/

set_option autoImplicit false

namespace TwoPass

def Placement.symbol? (placement : Placement) : Option Symbol :=
  match placement.entry with
  | .passive line =>
    match line.body with
    | .label name => some ⟨name, placement.address, some (line.location 0)⟩
    | _ => none
  | _ => none

def Placement.definition? (placement : Placement) : Option (Text × Nat) :=
  placement.symbol?.map fun symbol => (symbol.name, symbol.address)

namespace FirstPass

/-- What one placement does to the pass: it only adds diagnostics, and it makes the binding of its
label unless that would be fatal. -/
structure Stepped (pass : FirstPass) (placement : Placement) (after : FirstPass) : Prop where
  grown : ∃ more, Report.Grown pass.journal.report more after.journal.report
  rejected : after.journal.report.hasFatal = false → ∀ line found,
    placement.entry = .rejected line found → found.isFatal = false
  placed : after.journal.report.hasFatal = false → ∀ symbol, placement.symbol? = some symbol →
    symbol.address ≤ Machine.maxAddress
  unfrozen : after.symbols.frozen = false
  symbols : after.journal.report.hasFatal = false → after.symbols =
    ⟨SymbolTable.insertAll pass.symbols.symbols placement.symbol?.toList, false⟩

theorem Stepped.ofSameSymbols {pass after : FirstPass} {placement : Placement}
    {more : List Diagnostic} (unfrozen : pass.symbols.frozen = false)
    (unlabelled : placement.symbol? = none) (same : after.symbols = pass.symbols)
    (grown : Report.Grown pass.journal.report more after.journal.report)
    (rejected : ∀ line found, placement.entry = .rejected line found → .problem found ∈ more) :
    Stepped pass placement after := by
  refine ⟨⟨more, grown⟩, ?_, by simp [unlabelled], same ▸ unfrozen, fun _ => ?_⟩
  · intro clean line found entry
    have harmless := (grown.clean clean).2 _ (rejected line found entry)
    exact decide_eq_false harmless
  · rw [same, unlabelled]
    obtain ⟨⟨symbols, frozen⟩, journal⟩ := pass
    cases unfrozen
    rfl

theorem defineLabel_stepped {pass : FirstPass} {line : Line} {name : Text} {placement : Placement}
    (entry : placement.entry = .passive line) (label : line.body = .label name)
    (unfrozen : pass.symbols.frozen = false) :
    Stepped pass placement (pass.defineLabel line name placement.address).1 := by
  have symbol : placement.symbol? = some ⟨name, placement.address, some (line.location 0)⟩ := by
    simp only [Placement.symbol?, entry, label]
  unfold defineLabel
  dsimp only
  rw [SymbolTable.define_eq unfrozen]
  by_cases small : placement.address ≤ Machine.maxAddress
  · rw [if_pos small]
    refine ⟨?_, by simp [entry], ?_, rfl, ?_⟩
    · cases earlier : pass.symbols.find? name with
      | none => exact ⟨[], .refl _⟩
      | some symbol => exact ⟨_, .warn pass.journal.report _ _⟩
    · intro _ made same
      cases symbol.symm.trans same
      exact small
    · intro _
      rw [symbol]
      rfl
  · rw [if_neg small]
    -- an address of more than 32 bits is a fatal problem, so nothing is said about the table
    generalize overflow :
      (⟨.addressOverflow name placement.address, some (line.location 0), none⟩ : Problem) = found
    have grown : Report.Grown pass.journal.report [.problem found]
        (pass.reject found).1.journal.report := .add pass.journal.report found
    have fatal : (pass.reject found).1.journal.report.hasFatal ≠ false := by
      intro clean
      refine (grown.clean clean).2 _ List.mem_cons_self ?_
      rw [← overflow]
      rfl
    exact ⟨⟨_, grown⟩, by simp [entry], fun clean => absurd clean fatal, unfrozen,
      fun clean => absurd clean fatal⟩

theorem observe_stepped {pass : FirstPass} (placement : Placement)
    (unfrozen : pass.symbols.frozen = false) :
    Stepped pass placement (pass.observe placement).1 := by
  cases entry : placement.entry with
  | rejected line found =>
    have observed : pass.observe placement = pass.reject found := by simp only [observe, entry]
    rw [observed]
    refine .ofSameSymbols unfrozen (by simp only [Placement.symbol?, entry]) rfl
      (.add pass.journal.report found) ?_
    intro other problem same
    cases entry.symm.trans same
    exact List.mem_cons_self
  | stray line =>
    simp only [observe, entry]
    exact .ofSameSymbols unfrozen (by simp only [Placement.symbol?, entry]) rfl
      (.warn pass.journal.report _ _) (by simp [entry])
  | passive line =>
    cases body : line.body with
    | label name =>
      simp only [observe, entry, body]
      exact defineLabel_stepped entry body unfrozen
    | _ =>
      simp only [observe, entry, body]
      exact .ofSameSymbols unfrozen (by simp only [Placement.symbol?, entry, body]) rfl
        (.refl _) (by simp [entry])
  | _ =>
    simp only [observe, entry]
    exact .ofSameSymbols unfrozen (by simp only [Placement.symbol?, entry]) rfl (.refl _)
      (by simp [entry])

structure Completed (pass : FirstPass) (placements : List Placement) (first : FirstPass) : Prop where
  grown : ∃ more, Report.Grown pass.journal.report more first.journal.report
  accepted : ∀ placement ∈ placements, ∀ line found, placement.entry = .rejected line found →
    found.isFatal = false
  addresses : ∀ placement ∈ placements, ∀ symbol, placement.symbol? = some symbol →
    symbol.address ≤ Machine.maxAddress
  symbols : first.symbols =
    ⟨SymbolTable.insertAll pass.symbols.symbols (placements.filterMap Placement.symbol?), false⟩

theorem observeAll_completed {placements : List Placement} {pass first : FirstPass}
    (unfrozen : pass.symbols.frozen = false) (ended : pass.observeAll placements = (first, none))
    (clean : first.journal.report.hasFatal = false) : Completed pass placements first := by
  induction placements generalizing pass with
  | nil =>
    obtain ⟨⟨symbols, frozen⟩, journal⟩ := pass
    cases unfrozen
    cases ended
    exact ⟨⟨[], .refl _⟩, by simp, by simp, rfl⟩
  | cons placement rest ih =>
    have stepped := observe_stepped placement unfrozen
    unfold observeAll at ended
    split at ended
    · cases ended
    next after observed =>
    rw [observed] at stepped
    have tail := ih stepped.unfrozen ended
    obtain ⟨front, begun⟩ := stepped.grown
    obtain ⟨back, gone⟩ := tail.grown
    -- diagnostics are only added, so nothing fatal can have been told on the way
    have cleanAfter := (gone.clean clean).1
    refine ⟨⟨front ++ back, begun.trans gone⟩, ?_, ?_, ?_⟩
    · rw [List.forall_mem_cons]
      exact ⟨stepped.rejected cleanAfter, tail.accepted⟩
    · rw [List.forall_mem_cons]
      exact ⟨stepped.placed cleanAfter, tail.addresses⟩
    · rw [tail.symbols, stepped.symbols cleanAfter]
      cases symbol : placement.symbol? <;> simp [symbol, SymbolTable.insertAll]

/-- Placements without a label, a problem or a misplaced line leave the pass as it was. -/
theorem observeAll_quiet {placements : List Placement} (pass : FirstPass)
    (quiet : ∀ placement ∈ placements, pass.observe placement = (pass, none)) :
    pass.observeAll placements = (pass, none) := by
  induction placements with
  | nil => rfl
  | cons placement rest ih =>
    rw [List.forall_mem_cons] at quiet
    rw [observeAll, quiet.1]
    exact ih quiet.2

end FirstPass

end TwoPass
