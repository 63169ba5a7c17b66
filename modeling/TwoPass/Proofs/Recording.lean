import TwoPass.Progress

/-! Recording diagnostics up to the limit.

A report has room for so many fatal problems. `Recorded` says what becomes of a report when
diagnostics are offered to it one after the other: they are recorded and delivered up to the one that
uses up the room, and recording stops exactly there. Records of a first and of a second part make up
one of both. -/

set_option autoImplicit false

namespace TwoPass

def fatalCount (diagnostics : List Diagnostic) : Nat :=
  diagnostics.countP fun diagnostic => diagnostic.severity = .fatal

/-- The diagnostics up to the fatal one, that one included, which uses up the room. -/
def upToFatal : (room : Nat) → List Diagnostic → List Diagnostic
  | 0, _ => []
  | _ + 1, [] => []
  | room + 1, diagnostic :: rest =>
    diagnostic :: upToFatal (if diagnostic.severity = .fatal then room else room + 1) rest

section
variable {room : Nat} {diagnostics first rest : List Diagnostic}

@[simp] theorem upToFatal_nil (room : Nat) : upToFatal room [] = [] := by
  cases room <;> rfl

theorem upToFatal_singleton (positive : 0 < room) (diagnostic : Diagnostic) :
    upToFatal room [diagnostic] = [diagnostic] := by
  obtain ⟨room, rfl⟩ := Nat.exists_eq_add_one_of_ne_zero (Nat.ne_zero_of_lt positive)
  simp [upToFatal]

@[simp] theorem fatalCount_nil : fatalCount [] = 0 := rfl

theorem fatalCount_cons (diagnostic : Diagnostic) (rest : List Diagnostic) :
    fatalCount (diagnostic :: rest) =
      fatalCount rest + if diagnostic.severity = .fatal then 1 else 0 := by
  simp [fatalCount, List.countP_cons]

theorem fatalCount_append (first rest : List Diagnostic) :
    fatalCount (first ++ rest) = fatalCount first + fatalCount rest := List.countP_append

theorem fatalCount_eq_zero_iff :
    fatalCount diagnostics = 0 ↔ ∀ diagnostic ∈ diagnostics, diagnostic.severity ≠ .fatal := by
  simp [fatalCount]

/-- Diagnostics that leave room are all recorded, and what follows has the room that is left. -/
theorem upToFatal_append_of_lt (few : fatalCount first < room) (rest : List Diagnostic) :
    upToFatal room (first ++ rest) = first ++ upToFatal (room - fatalCount first) rest := by
  induction first generalizing room with
  | nil => rfl
  | cons diagnostic first ih =>
    obtain ⟨room, rfl⟩ := Nat.exists_eq_add_one_of_ne_zero (Nat.ne_zero_of_lt few)
    rw [fatalCount_cons] at few ⊢
    rw [List.cons_append, upToFatal, List.cons_append]
    split at few
    · next fatal =>
      rw [if_pos fatal, if_pos fatal, ih (by omega)]
      congr 3
      omega
    · next harmless =>
      rw [if_neg harmless, if_neg harmless, ih (by omega)]
      rfl

theorem upToFatal_of_lt (few : fatalCount diagnostics < room) :
    upToFatal room diagnostics = diagnostics := by
  have whole := upToFatal_append_of_lt few []
  rwa [List.append_nil, upToFatal_nil, List.append_nil] at whole

theorem upToFatal_append_of_le (many : room ≤ fatalCount first) (rest : List Diagnostic) :
    upToFatal room (first ++ rest) = upToFatal room first := by
  induction first generalizing room with
  | nil =>
    cases Nat.le_zero.mp many
    simp [upToFatal]
  | cons diagnostic first ih =>
    cases room with
    | zero => rfl
    | succ room =>
      rw [fatalCount_cons] at many
      rw [List.cons_append, upToFatal, upToFatal]
      split
      · next fatal =>
        rw [if_pos fatal] at many
        rw [ih (by omega)]
      · next harmless =>
        rw [if_neg harmless] at many
        rw [ih (by omega)]

theorem upToFatal_begins (room : Nat) (diagnostics : List Diagnostic) :
    upToFatal room diagnostics <+: diagnostics := by
  induction diagnostics generalizing room with
  | nil => simp
  | cons diagnostic rest ih =>
    cases room with
    | zero => exact List.nil_prefix
    | succ room => exact List.cons_prefix_cons.mpr ⟨rfl, ih _⟩

/-- Something fatal is recorded exactly if there is room for it and it is offered. -/
theorem fatalCount_upToFatal (room : Nat) (diagnostics : List Diagnostic) :
    fatalCount (upToFatal room diagnostics) = min room (fatalCount diagnostics) := by
  induction diagnostics generalizing room with
  | nil => simp
  | cons diagnostic rest ih =>
    cases room with
    | zero => simp [upToFatal]
    | succ room =>
      rw [upToFatal, fatalCount_cons, fatalCount_cons, ih]
      split <;> omega

theorem getLast?_upToFatal (positive : 0 < room) (many : room ≤ fatalCount diagnostics) :
    (upToFatal room diagnostics).getLast?.map Diagnostic.severity = some .fatal := by
  induction diagnostics generalizing room with
  | nil => exact absurd positive (Nat.not_lt_of_le many)
  | cons diagnostic rest ih =>
    obtain ⟨room, rfl⟩ := Nat.exists_eq_add_one_of_ne_zero (Nat.ne_zero_of_lt positive)
    rw [fatalCount_cons] at many
    have behind {more : List Diagnostic}
        (ends : more.getLast?.map Diagnostic.severity = some .fatal) :
        (diagnostic :: more).getLast?.map Diagnostic.severity = some .fatal := by
      obtain ⟨last, found, fatal⟩ := Option.map_eq_some_iff.mp ends
      simp [List.getLast?_cons, found, fatal]
    rw [upToFatal]
    by_cases fatal : diagnostic.severity = .fatal
    · rw [if_pos fatal] at many ⊢
      cases room with
      | zero => simp [upToFatal, fatal]
      | succ room => exact behind (ih (Nat.succ_pos room) (by omega))
    · rw [if_neg fatal] at many ⊢
      exact behind (ih positive many)

end

namespace Diagnostic

def fatal? : Diagnostic → Option Problem
  | .problem found => if found.isFatal then some found else none
  | .warning .. => none

theorem isSome_fatal?_iff (diagnostic : Diagnostic) :
    diagnostic.fatal?.isSome = true ↔ diagnostic.severity = .fatal := by
  cases diagnostic with
  | problem found =>
    by_cases fatal : found.severity = .fatal <;> simp [fatal?, Problem.isFatal, severity, fatal]
  | warning notice location => simp [fatal?, severity]

theorem length_filterMap_fatal? (diagnostics : List Diagnostic) :
    (diagnostics.filterMap fatal?).length = fatalCount diagnostics := by
  rw [List.length_filterMap_eq_countP, fatalCount]
  apply List.countP_congr
  intro diagnostic _
  rw [isSome_fatal?_iff, decide_eq_true_eq]

end Diagnostic

namespace Report

variable {α β : Type} {report before middle after : Report} {room : Nat}
  {all first rest more : List Diagnostic} {stop : Option α}

theorem add_fst (report : Report) (found : Problem) :
    (report.add found).1 =
      { report.record (.problem found) with
        fatal := report.fatal ++ [.problem found].filterMap Diagnostic.fatal? } := by
  unfold add
  dsimp only
  cases fatal : found.isFatal with
  | false => simp [Diagnostic.fatal?, fatal, record]
  | true =>
    rw [if_pos rfl]
    split <;> simp [Diagnostic.fatal?, fatal, record]

theorem add_snd (report : Report) (found : Problem) : (report.add found).2 =
    if found.severity = .fatal ∧ report.limit ≤ report.fatal.length + 1 then
      some { fault := .tooManyErrors report.limit } else none := by
  by_cases fatal : found.severity = .fatal
  · by_cases reached : report.limit ≤ report.fatal.length + 1
    · simp [add, record, Problem.isFatal, fatal, reached]
    · simp [add, record, Problem.isFatal, fatal, reached]
  · simp [add, Problem.isFatal, fatal]

/-- A report with more diagnostics, and with the fatal problems among them. -/
structure Grown (before : Report) (more : List Diagnostic) (after : Report) : Prop where
  limit : after.limit = before.limit
  fatal : after.fatal = before.fatal ++ more.filterMap Diagnostic.fatal?
  diagnostics : after.diagnostics = before.diagnostics ++ more
  delivered : after.delivered = before.delivered ++ more

theorem Grown.refl (report : Report) : Grown report [] report := by
  constructor <;> simp

theorem Grown.trans (grown : Grown before first middle) (next : Grown middle rest after) :
    Grown before (first ++ rest) after := by
  constructor
  · exact next.limit.trans grown.limit
  · rw [next.fatal, grown.fatal, List.filterMap_append, List.append_assoc]
  · rw [next.diagnostics, grown.diagnostics, List.append_assoc]
  · rw [next.delivered, grown.delivered, List.append_assoc]

theorem Grown.warn (report : Report) (notice : Warning) (location : Option Location) :
    Grown report [.warning notice location] (report.warn notice location) :=
  ⟨rfl, (List.append_nil _).symm, rfl, rfl⟩

theorem Grown.add (report : Report) (found : Problem) :
    Grown report [.problem found] (report.add found).1 := by
  rw [add_fst]
  exact ⟨rfl, rfl, rfl, rfl⟩

theorem Grown.length_fatal (grown : Grown before more after) :
    after.fatal.length = before.fatal.length + fatalCount more := by
  rw [grown.fatal, List.length_append, Diagnostic.length_filterMap_fatal?]

theorem hasFatal_eq_false_iff : report.hasFatal = false ↔ report.fatal.length = 0 := by
  rw [hasFatal, List.length_eq_zero_iff]
  simp

-- without a fatal problem at the end there has been none at the beginning, nor on the way
theorem Grown.clean (grown : Grown before more after) (clean : after.hasFatal = false) :
    before.hasFatal = false ∧ ∀ diagnostic ∈ more, diagnostic.severity ≠ .fatal := by
  rw [hasFatal_eq_false_iff, grown.length_fatal, Nat.add_eq_zero_iff] at clean
  exact ⟨hasFatal_eq_false_iff.mpr clean.1, fatalCount_eq_zero_iff.mp clean.2⟩

def Room (report : Report) (room : Nat) : Prop :=
  report.limit = report.fatal.length + room

/-- What a report becomes when diagnostics are offered to it while it has room, and whether recording
stops. -/
structure Recorded (before : Report) (room : Nat) (all : List Diagnostic) (after : Report)
    (stop : Option α) : Prop extends Grown before (upToFatal room all) after where
  goesOn : stop = none ↔ fatalCount all < room

theorem Recorded.nil (positive : 0 < room) : Recorded report room [] report (none : Option α) := by
  refine ⟨?_, by simp [positive]⟩
  rw [upToFatal_nil]
  exact .refl report

theorem Recorded.warn (positive : 0 < room) (notice : Warning) (location : Option Location) :
    Recorded report room [.warning notice location] (report.warn notice location)
      (none : Option α) := by
  refine ⟨?_, ?_⟩
  · rw [upToFatal_singleton positive]
    exact .warn report notice location
  · simp [fatalCount, Diagnostic.severity, positive]

theorem Recorded.add (roomy : report.Room room) (positive : 0 < room) (found : Problem) :
    Recorded report room [.problem found] (report.add found).1 (report.add found).2 := by
  refine ⟨?_, ?_⟩
  · rw [upToFatal_singleton positive]
    exact .add report found
  · -- the limit is reached exactly if the problem is fatal and takes the last of the room
    rw [Room] at roomy
    rw [add_snd, roomy]
    by_cases fatal : found.severity = .fatal
    · have own : fatalCount [.problem found] = 1 := by simp [fatalCount, Diagnostic.severity, fatal]
      simp only [fatal, own, true_and, ite_eq_right_iff, reduceCtorEq, imp_false]
      omega
    · have own : fatalCount [.problem found] = 0 := by simp [fatalCount, Diagnostic.severity, fatal]
      simp [fatal, own, positive]

theorem Recorded.room_left (recorded : Recorded before room all after (none : Option α))
    (roomy : before.Room room) :
    after.Room (room - fatalCount all) ∧ 0 < room - fatalCount all := by
  have few := recorded.goesOn.mp rfl
  have more := recorded.length_fatal
  rw [upToFatal_of_lt few] at more
  rw [Room] at roomy ⊢
  rw [recorded.limit, more]
  omega

theorem Recorded.room_le {reason : α} (recorded : Recorded before room all after (some reason)) :
    room ≤ fatalCount all := by
  apply Nat.le_of_not_lt
  intro few
  cases recorded.goesOn.mpr few

theorem Recorded.stopped {reason : α} (recorded : Recorded before room first after (some reason))
    (rest : List Diagnostic) : Recorded before room (first ++ rest) after (some reason) := by
  have many := recorded.room_le
  refine ⟨?_, ?_⟩
  · rw [upToFatal_append_of_le many]
    exact recorded.toGrown
  · rw [fatalCount_append]
    simp only [reduceCtorEq, false_iff]
    omega

theorem Recorded.map (recorded : Recorded before room all after stop) (reason : α → β) :
    Recorded before room all after (stop.map reason) :=
  ⟨recorded.toGrown, Option.map_eq_none_iff.trans recorded.goesOn⟩

theorem Recorded.append (recorded : Recorded before room first middle (none : Option β))
    (next : Recorded middle (room - fatalCount first) rest after stop) :
    Recorded before room (first ++ rest) after stop := by
  have few := recorded.goesOn.mp rfl
  have grown := recorded.toGrown
  rw [upToFatal_of_lt few] at grown
  refine ⟨?_, ?_⟩
  · rw [upToFatal_append_of_lt few]
    exact grown.trans next.toGrown
  · rw [next.goesOn, fatalCount_append]
    omega

end Report

end TwoPass
