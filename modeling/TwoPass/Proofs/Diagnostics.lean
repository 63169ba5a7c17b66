import TwoPass.Proofs.Outcome
import TwoPass.Proofs.Recording

/-! Which diagnostics a program gets.

What is to be told about a line is said without the passes: on collecting by the line and by those in
front of it, on emitting by the labels of the whole program. Each pass records what is to be told
about one placement and so, by induction, what is to be told about all of them up to the limit. -/

set_option autoImplicit false

namespace TwoPass

namespace Placement

def binding? (placement : Placement) : Option Symbol :=
  placement.symbol?.filter (·.address ≤ Machine.maxAddress)

/-- What is to be told on collecting about a placement behind others: the problem of a line that is
rejected, content in front of every directive, a label whose address is too large, or a label that is
bound already. -/
def toldOnCollecting (before : List Placement) (placement : Placement) : List Diagnostic :=
  match placement.entry with
  | .rejected _ found => [.problem found]
  | .stray line => [.warning (.outsideSection line.text) (some (line.location 0))]
  | .passive line =>
    match line.body with
    | .label name =>
      if placement.address ≤ Machine.maxAddress then
        match (before.filterMap binding?).reverse.find? (·.name == name) with
        | none => []
        | some earlier =>
          [.warning (.labelRedefined name earlier.address earlier.location placement.address)
            (some (line.location 0))]
      else [.problem ⟨.addressOverflow name placement.address, some (line.location 0), none⟩]
    | _ => []
  | .item _ | .code .. => []

def collectingDiagnostics (before : List Placement) : List Placement → List Diagnostic
  | [] => []
  | placement :: rest =>
    placement.toldOnCollecting before ++ collectingDiagnostics (before ++ [placement]) rest

def table (placements : List Placement) : SymbolTable :=
  ⟨SymbolTable.insertAll [] (placements.filterMap symbol?), true⟩

end Placement

/-- A problem on emitting is fatal, but for an undefined label where that is allowed. -/
def Settings.told (settings : Settings) (found : Problem) : Diagnostic :=
  .problem (if settings.allowUndefined then found.downgraded else found)

def Placement.toldOnEmitting (settings : Settings) (table : SymbolTable) (placement : Placement) :
    List Diagnostic :=
  match placement.entry with
  | .item line => (line.itemProblem? table).toList.map settings.told
  | .code statement _ shape =>
    (statement.labelProblem? table shape placement.address).toList.map settings.told
  | _ => []

namespace Placement

def emittingDiagnostics (settings : Settings) (placements : List Placement) : List Diagnostic :=
  placements.flatMap (toldOnEmitting settings (table placements))

/-- All that is to be told about a program. Nothing is emitted if collecting tells of something
fatal. -/
def diagnostics (settings : Settings) (placements : List Placement) : List Diagnostic :=
  let collecting := collectingDiagnostics [] placements
  if fatalCount collecting = 0 then collecting ++ emittingDiagnostics settings placements
  else collecting

end Placement

namespace FirstPass

variable {before placements : List Placement} {pass first : FirstPass} {room : Nat}

def Bound (pass : FirstPass) (before : List Placement) : Prop :=
  pass.symbols = ⟨SymbolTable.insertAll [] (before.filterMap Placement.binding?), false⟩

theorem Bound.binds {after : FirstPass} {placement : Placement} {symbol : Symbol}
    (bound : pass.Bound before) (binding : placement.binding? = some symbol)
    (made : after.symbols = ⟨SymbolTable.insert symbol pass.symbols.symbols, false⟩) :
    after.Bound (before ++ [placement]) := by
  rw [Bound] at bound
  rw [Bound, made, bound]
  simp [SymbolTable.insertAll, List.filterMap_append, binding]

theorem Bound.stays {after : FirstPass} {placement : Placement} (bound : pass.Bound before)
    (unbound : placement.binding? = none) (same : after.symbols = pass.symbols) :
    after.Bound (before ++ [placement]) := by
  rw [Bound] at bound
  rw [Bound, same, bound]
  simp [List.filterMap_append, unbound]

theorem defineLabel_recorded {line : Line} {name : Text} {placement : Placement}
    (bound : pass.Bound before) (roomy : pass.journal.report.Room room) (positive : 0 < room)
    (entry : placement.entry = .passive line) (label : line.body = .label name) :
    Report.Recorded pass.journal.report room (placement.toldOnCollecting before)
        (pass.defineLabel line name placement.address).1.journal.report
        (pass.defineLabel line name placement.address).2 ∧
      (pass.defineLabel line name placement.address).1.Bound (before ++ [placement]) := by
  have symbol : placement.symbol? = some ⟨name, placement.address, some (line.location 0)⟩ := by
    simp only [Placement.symbol?, entry, label]
  have unfrozen : pass.symbols.frozen = false := by rw [bound]
  have earlier : pass.symbols.find? name =
      (before.filterMap Placement.binding?).reverse.find? (·.name == name) := by
    rw [bound, SymbolTable.find?, SymbolTable.find?_insertAll, List.find?_nil, Option.or_none]
  simp only [Placement.toldOnCollecting, entry, label]
  unfold defineLabel
  dsimp only
  rw [SymbolTable.define_eq unfrozen, ← earlier]
  by_cases small : placement.address ≤ Machine.maxAddress
  · rw [if_pos small, if_pos small]
    dsimp only
    constructor
    · cases pass.symbols.find? name with
      | none => exact .nil positive
      | some other => exact .warn positive _ _
    · refine bound.binds ?_ rfl
      simp [Placement.binding?, symbol, Option.filter, small]
  · rw [if_neg small, if_neg small]
    refine ⟨.add roomy positive _, bound.stays ?_ rfl⟩
    simp [Placement.binding?, symbol, Option.filter, small]

/-- One placement: what is to be told about it is recorded, and its label is bound. -/
theorem observe_recorded (placement : Placement) (bound : pass.Bound before)
    (roomy : pass.journal.report.Room room) (positive : 0 < room) :
    Report.Recorded pass.journal.report room (placement.toldOnCollecting before)
        (pass.observe placement).1.journal.report (pass.observe placement).2 ∧
      (pass.observe placement).1.Bound (before ++ [placement]) := by
  have stays {after : FirstPass} (unlabelled : placement.symbol? = none)
      (same : after.symbols = pass.symbols) : after.Bound (before ++ [placement]) :=
    bound.stays (by rw [Placement.binding?, unlabelled]; rfl) same
  cases entry : placement.entry with
  | rejected line found =>
    have observed : pass.observe placement = pass.reject found := by simp only [observe, entry]
    have told : placement.toldOnCollecting before = [.problem found] := by
      simp only [Placement.toldOnCollecting, entry]
    rw [observed, told]
    exact ⟨.add roomy positive found, stays (by simp only [Placement.symbol?, entry]) rfl⟩
  | stray line =>
    simp only [observe, Placement.toldOnCollecting, entry]
    exact ⟨.warn positive _ _, stays (by simp only [Placement.symbol?, entry]) rfl⟩
  | passive line =>
    cases body : line.body with
    | label name =>
      have observed : pass.observe placement = pass.defineLabel line name placement.address := by
        simp only [observe, entry, body]
      rw [observed]
      exact defineLabel_recorded bound roomy positive entry body
    | _ =>
      simp only [observe, Placement.toldOnCollecting, entry, body]
      exact ⟨.nil positive, stays (by simp only [Placement.symbol?, entry, body]) rfl⟩
  | item | code =>
    simp only [observe, Placement.toldOnCollecting, entry]
    exact ⟨.nil positive, stays (by simp only [Placement.symbol?, entry]) rfl⟩

/-- The whole pass: all that is to be told on collecting is recorded, up to the limit. -/
theorem observeAll_recorded {stop : Option Problem} (bound : pass.Bound before)
    (roomy : pass.journal.report.Room room) (positive : 0 < room)
    (observed : pass.observeAll placements = (first, stop)) :
    Report.Recorded pass.journal.report room (Placement.collectingDiagnostics before placements)
      first.journal.report stop := by
  induction placements generalizing pass before room with
  | nil =>
    cases observed
    exact .nil positive
  | cons placement rest ih =>
    obtain ⟨recorded, binds⟩ := observe_recorded placement bound roomy positive
    unfold observeAll at observed
    split at observed
    · next after reason step =>
      cases observed
      rw [step] at recorded
      exact recorded.stopped _
    · next after step =>
      rw [step] at recorded binds
      obtain ⟨roomyAfter, positiveAfter⟩ := recorded.room_left roomy
      exact recorded.append (ih binds roomyAfter positiveAfter observed)

end FirstPass

namespace Emission

variable {settings : Settings} {table : SymbolTable}

def toldBy : Except Failure Emission → List Diagnostic
  | .ok emission => emission.told
  | .error (.problem found) => [.problem found]
  | .error _ => []

theorem toldBy_unresolved (source : Text) (found : Problem) :
    toldBy (unresolved settings source found) = [settings.told found] := by
  unfold unresolved Settings.told
  cases allowed : settings.allowUndefined with
  | false => simp [toldBy]
  | true =>
    by_cases missing : found.fault.category = .undefinedLabel
    · simp [missing, toldBy, told]
    · -- only undefined labels are told as anything else than they are
      have same : found.downgraded = found := by
        unfold Problem.downgraded
        split
        · next fault => simp [fault, Fault.category] at missing
        · rfl
      simp [missing, toldBy, same]

theorem toldBy_ofItem (line : Line) :
    toldBy (ofItem settings table line) = (line.itemProblem? table).toList.map settings.told := by
  have answers := line.resolveData_answers table
  unfold ofItem
  generalize line.itemProblem? table = fault?, line.resolveData table = result at answers
  cases answers with
  | fails found => exact toldBy_unresolved line.text found
  | succeeds text => rfl

section
variable {line : Line} {statement : Statement} {instruction : Instruction} {shape : Shape} {place : Nat}

theorem exists_ofCode (valid : Statement.Valid line statement instruction shape)
    (silent : statement.labelProblem? table shape place = none) :
    ∃ emission, ofCode settings table place statement instruction shape = .ok emission ∧
      emission.told = [] := by
  obtain ⟨resolved, done⟩ := valid.exists_resolved silent
  unfold ofCode
  rw [done]
  dsimp only
  split
  · next stands =>
    obtain ⟨texts, expanded⟩ := valid.expand_eq stands done
    rw [expanded]
    exact ⟨_, rfl, rfl⟩
  · exact ⟨_, rfl, rfl⟩

theorem toldBy_ofCode (valid : Statement.Valid line statement instruction shape) :
    toldBy (ofCode settings table place statement instruction shape) =
      (statement.labelProblem? table shape place).toList.map settings.told := by
  cases found? : statement.labelProblem? table shape place with
  | some found =>
    rw [ofCode, valid.resolve_of_problem found?]
    exact toldBy_unresolved statement.text found
  | none =>
    obtain ⟨emission, emits, told⟩ :=
      @exists_ofCode settings table _ _ _ _ _ valid found?
    rw [emits]
    exact told

end

theorem toldBy_ofPlacement {file raw : Text} {inside : Option Section} {placement : Placement}
    (placed : Placed file placement.number inside raw placement.inside placement.entry)
    (harmless : ∀ line found, placement.entry = .rejected line found → found.isFatal = false) :
    toldBy (ofPlacement settings table placement) = placement.toldOnEmitting settings table := by
  obtain ⟨number, after, address, entry⟩ := placement
  dsimp only at placed harmless
  cases placed with
  | unread | refused => simp [ofPlacement, Placement.toldOnEmitting, harmless _ _ rfl, toldBy, told]
  | @passive line read other =>
    simp only [ofPlacement, Placement.toldOnEmitting]
    split
    · rfl
    · split <;> rfl
    · rfl
  | stray => rfl
  | @item line read content data => exact toldBy_ofItem line
  | code read code valid => exact toldBy_ofCode valid

end Emission

namespace SecondPass

variable {settings : Settings} {table : SymbolTable} {pass second : SecondPass} {room : Nat}

theorem write_recorded (placement : Placement) (emission : Emission)
    (roomy : pass.journal.report.Room room) (positive : 0 < room) :
    Report.Recorded pass.journal.report room emission.told
      (pass.write placement emission).1.journal.report (pass.write placement emission).2 := by
  cases emission with
  | directive target =>
    rw [write]
    split <;> exact .nil positive
  | verbatim source found => exact (Report.Recorded.add roomy positive found).map _
  | _ => exact .nil positive

theorem observe_recorded {placement : Placement}
    (written : ∀ failure, Emission.ofPlacement settings table placement = .error failure →
      ∃ found, failure = .problem found)
    (roomy : pass.journal.report.Room room) (positive : 0 < room) :
    Report.Recorded pass.journal.report room
      (Emission.toldBy (Emission.ofPlacement settings table placement))
      (observe settings table pass placement).1.journal.report
      (observe settings table pass placement).2 := by
  unfold observe
  cases emits : Emission.ofPlacement settings table placement with
  | ok emission => exact write_recorded placement emission roomy positive
  | error failure =>
    obtain ⟨found, rfl⟩ := written failure emits
    exact (Report.Recorded.add roomy positive found).map _

theorem observeAll_recorded {placements : List Placement} {stop : Option Failure}
    (written : ∀ placement ∈ placements, ∀ failure,
      Emission.ofPlacement settings table placement = .error failure →
        ∃ found, failure = .problem found)
    (roomy : pass.journal.report.Room room) (positive : 0 < room)
    (observed : observeAll settings table pass placements = (second, stop)) :
    Report.Recorded pass.journal.report room
      (placements.flatMap fun placement =>
        Emission.toldBy (Emission.ofPlacement settings table placement))
      second.journal.report stop := by
  induction placements generalizing pass room with
  | nil =>
    cases observed
    exact .nil positive
  | cons placement rest ih =>
    rw [List.forall_mem_cons] at written
    have recorded := observe_recorded written.1 roomy positive
    rw [List.flatMap_cons]
    unfold observeAll at observed
    split at observed
    · next after reason step =>
      cases observed
      rw [step] at recorded
      exact recorded.stopped _
    · next after step =>
      rw [step] at recorded
      obtain ⟨roomyAfter, positiveAfter⟩ := recorded.room_left roomy
      exact recorded.append (ih written.2 roomyAfter positiveAfter observed)

end SecondPass

end TwoPass
