import Mathlib.Tactic.Ring
import TwoPass.Proofs.Execution
import TwoPass.Proofs.Resolution

/-! The value that a load leaves in its register.

The windows of a load cover the bits of the value without a gap, and the shift behind each makes room
for the next one. So the bits seen through them add up to the value again, and the instructions of a
load, read back and executed, leave the value in the target register and nothing else changed. -/

set_option autoImplicit false

namespace TwoPass

namespace Expansion

/-- Windows that cover the bits below `remaining`, where the shift behind each window is as wide as
the next one. -/
def Covers : (remaining : Nat) → List Window → Prop
  | remaining, [] => remaining = 0
  | remaining, window :: rest =>
    window.width ≤ remaining ∧ window.shift = (rest.head?.map Window.width).getD 0 ∧
      Covers (remaining - window.width) rest

theorem covers_loadWindows : Covers 64 loadWindows := by
  simp [Covers, loadWindows]

/-- Chunks put together again: each is added to what is there, and the sum is shifted. -/
def recombined (total : Nat) (chunks : List (Nat × Window)) : Nat :=
  chunks.foldl (fun total entry => (total + entry.1) * 2 ^ entry.2.shift) total

theorem emod_mul_eq (value : Int) {low high : Int} (positive : 0 < low) (above : 0 < high) :
    value % (low * high) = value % low + low * (value / low % high) := by
  have lowSign := Int.emod_nonneg value positive.ne'
  have highSign := Int.emod_nonneg (value / low) above.ne'
  have whole : value % low + low * (value / low % high) + low * high * (value / low / high) =
      value := by
    calc value % low + low * (value / low % high) + low * high * (value / low / high)
        = low * (high * (value / low / high) + value / low % high) + value % low := by ring
      _ = value := by rw [Int.mul_ediv_add_emod, Int.mul_ediv_add_emod]
  have bound : value % low + low * (value / low % high) < low * high := by
    calc value % low + low * (value / low % high)
        < low + low * (value / low % high) :=
          Int.add_lt_add_right (Int.emod_lt_of_pos value positive) _
      _ = low * (value / low % high + 1) := by ring
      _ ≤ low * high :=
          Int.mul_le_mul_of_nonneg_left (Int.emod_lt_of_pos _ above) positive.le
  have nonnegative := Int.add_nonneg lowSign (Int.mul_nonneg positive.le highSign)
  exact ((Int.ediv_emod_unique (Int.mul_pos positive above)).mpr ⟨whole, nonnegative, bound⟩).2

theorem recombined_chunksFrom (value : Int) {windows : List Window} {remaining : Nat}
    (covers : Covers remaining windows) (total : Nat) :
    (recombined (total * 2 ^ (windows.head?.map Window.width).getD 0)
        (chunksFrom value remaining windows) : Int) =
      total * 2 ^ remaining + value % 2 ^ remaining := by
  -- what stands before the next window has already been shifted by its width
  induction windows generalizing remaining total with
  | nil =>
    obtain rfl : remaining = 0 := covers
    have empty : chunksFrom value 0 [] = [] := rfl
    simp [recombined, empty]
  | cons window rest ih =>
    obtain ⟨within, shift, others⟩ := covers
    have below : (0 : Int) < 2 ^ (remaining - window.width) := Int.pow_pos (by decide)
    have above : (0 : Int) < 2 ^ window.width := Int.pow_pos (by decide)
    have split : (2 : Int) ^ remaining = 2 ^ (remaining - window.width) * 2 ^ window.width := by
      rw [← Int.pow_add, Nat.sub_add_cancel within]
    have chunk : (((value / 2 ^ (remaining - window.width) % 2 ^ window.width).toNat : Nat) : Int) =
        value / 2 ^ (remaining - window.width) % 2 ^ window.width :=
      Int.toNat_of_nonneg (Int.emod_nonneg _ above.ne')
    have step := ih others (total * 2 ^ window.width +
      (value / 2 ^ (remaining - window.width) % 2 ^ window.width).toNat)
    rw [← shift] at step
    calc (recombined (total * 2 ^ window.width) (chunksFrom value remaining (window :: rest)) : Int)
        = _ := step
      _ = total * 2 ^ remaining + value % 2 ^ remaining := by
          rw [split, emod_mul_eq value below above]
          push_cast [chunk]
          ring

theorem chunk_lt (value : Int) (below width : Nat) :
    (value / 2 ^ below % 2 ^ width).toNat < 2 ^ width := by
  have positive : (0 : Int) < 2 ^ width := Int.pow_pos (by decide)
  have bound := Int.emod_lt_of_pos (value / 2 ^ below) positive
  rw [Int.toNat_lt (Int.emod_nonneg _ positive.ne')]
  exact_mod_cast bound

/-- Every integer is split into five chunks of 12 bits and one of 4, and they make up its lowest 64
bits. -/
theorem loadChunks_split (value : Int) :
    (∃ chunks last, (loadChunks value).map Prod.fst = chunks ++ [last] ∧ chunks.length = 5 ∧
      (∀ chunk ∈ chunks, chunk ≤ 4095) ∧ last ≤ 15) ∧
    (loadChunks value).map Prod.snd = loadWindows ∧
    (recombined 0 (loadChunks value) : Int) = value % 2 ^ 64 := by
  have twelve (below : Nat) : (value / 2 ^ below % 2 ^ 12).toNat ≤ 4095 :=
    Nat.le_of_lt_succ (chunk_lt value below 12)
  refine ⟨⟨[_, _, _, _, _], _, rfl, rfl, ?_, Nat.le_of_lt_succ (chunk_lt value 0 4)⟩, rfl, ?_⟩
  · simp only [List.forall_mem_cons, List.not_mem_nil, false_implies, implies_true, and_true]
    exact ⟨twelve 52, twelve 40, twelve 28, twelve 16, twelve 4⟩
  · have whole := recombined_chunksFrom value covers_loadWindows 0
    rwa [Nat.zero_mul, Nat.cast_zero, Int.zero_mul, Int.zero_add] at whole

def recombinedWord (word : BitVec 64) (chunks : List (Nat × Window)) : BitVec 64 :=
  chunks.foldl (fun word entry => (word + BitVec.ofNat 64 entry.1) <<< entry.2.shift) word

theorem recombinedWord_ofNat (total : Nat) (chunks : List (Nat × Window)) :
    recombinedWord (BitVec.ofNat 64 total) chunks = BitVec.ofNat 64 (recombined total chunks) := by
  induction chunks generalizing total with
  | nil => rfl
  | cons entry rest ih =>
    have shifted : (BitVec.ofNat 64 total + BitVec.ofNat 64 entry.1) <<< entry.2.shift =
        BitVec.ofNat 64 ((total + entry.1) * 2 ^ entry.2.shift) := by
      rw [← BitVec.ofNat_add]
      apply BitVec.eq_of_toNat_eq
      rw [BitVec.toNat_shiftLeft, BitVec.toNat_ofNat, BitVec.toNat_ofNat, Nat.shiftLeft_eq,
        Nat.mod_mul_mod]
    simp only [recombinedWord, recombined, List.foldl_cons] at ih ⊢
    rw [shifted, ih]

theorem recombinedWord_loadChunks (value : Int) :
    recombinedWord 0 (loadChunks value) = BitVec.ofInt 64 value := by
  have whole := (loadChunks_split value).2.2
  apply BitVec.eq_of_toNat_eq
  rw [show (0 : BitVec 64) = BitVec.ofNat 64 0 from rfl, recombinedWord_ofNat, BitVec.toNat_ofNat,
    BitVec.toNat_ofInt]
  omega

end Expansion

namespace Registers

variable {file : Text} {number : Int} {target : Fin Machine.registerCount}

theorem runLines?_loadStep (registers : Registers) {entry : Nat × Expansion.Window}
    (chunk : entry.1 ≤ 4095) (shift : entry.2.shift ≤ 4095) (rest : List Text) :
    registers.runLines? file number
        ((Expansion.loadStep (Expansion.registerPart target).2 entry).map InstructionText.render ++
          rest) =
      runLines? file number (Function.update registers target
        ((registers target + BitVec.ofNat 64 entry.1) <<< entry.2.shift)) rest := by
  have register := Expansion.registerPart_spelled target.isLt
  have addition (next : List Text) := @runLines?_written file number registers "addi" _
    [Expansion.registerPart target, Expansion.numberPart entry.1] next _ rfl (by simp)
    (by simp [register, Expansion.numberPart_spelled chunk]) (registers.execute?_addi target entry.1)
  unfold Expansion.loadStep
  dsimp only
  split
  · next unshifted =>
    rw [eq_of_beq unshifted, BitVec.shiftLeft_zero]
    exact addition rest
  · generalize sum : Function.update registers target
      (registers target + BitVec.ofNat 64 entry.1) = added at addition
    have shifting := @runLines?_written file number added "shftli" _
      [Expansion.registerPart target, Expansion.numberPart entry.2.shift] rest _ rfl (by simp)
      (by simp [register, Expansion.numberPart_spelled shift])
      (execute?_shftli added target entry.2.shift)
    refine (addition _).trans (shifting.trans ?_)
    rw [← sum, Function.update_self, Function.update_idem]

theorem runLines?_loadSteps (registers : Registers) {chunks : List (Nat × Expansion.Window)}
    (small : ∀ entry ∈ chunks, entry.1 ≤ 4095 ∧ entry.2.shift ≤ 4095) :
    registers.runLines? file number ((chunks.flatMap
        (Expansion.loadStep (Expansion.registerPart target).2)).map InstructionText.render) =
      some (Function.update registers target
        (Expansion.recombinedWord (registers target) chunks)) := by
  induction chunks generalizing registers with
  | nil => simp [runLines?, Expansion.recombinedWord]
  | cons entry rest ih =>
    rw [List.forall_mem_cons] at small
    rw [List.flatMap_cons, List.map_append, runLines?_loadStep registers small.1.1 small.1.2,
      ih _ small.2, Function.update_self, Function.update_idem]
    rfl

theorem runLines?_load (registers : Registers) (value : Int) :
    registers.runLines? file number ((Expansion.load (Expansion.registerPart target).2 value).map
        InstructionText.render) =
      some (Function.update registers target (BitVec.ofInt 64 value)) := by
  have register := Expansion.registerPart_spelled target.isLt
  have clearing := @runLines?_written file number registers "xor" _
    [Expansion.registerPart target, Expansion.registerPart target, Expansion.registerPart target]
    (((Expansion.loadChunks value).flatMap
      (Expansion.loadStep (Expansion.registerPart target).2)).map InstructionText.render)
    _ rfl (by simp) (by simp [register]) (registers.execute?_xor_self target)
  refine clearing.trans ?_
  rw [runLines?_loadSteps _ fun entry member => Expansion.mem_loadChunks member,
    Function.update_self, Function.update_idem, Expansion.recombinedWord_loadChunks]

end Registers

namespace Statement

/-- A load is expanded to twelve lines, which, read back and executed on any registers, leave the
value in the target and every other register as it was. -/
def Loads (statement : Statement) (target : Fin Machine.registerCount) (value : Nat) : Prop :=
  ∃ texts, statement.expand = .ok texts ∧ texts.length = 12 ∧
    ∀ (file : Text) (number : Int) (registers : Registers), ∃ after,
      registers.runLines? file number texts = some after ∧ (after target).toNat = value ∧
      ∀ other, other ≠ target → after other = registers other

variable {statement resolved : Statement} {shape : Shape} {table : SymbolTable} {place : Int}

theorem loads_of_values {target : Fin Machine.registerCount} {value : Nat} (small : value < 2 ^ 64)
    (ld : statement.mnemonic = "ld")
    (values : statement.operands.map Operand.value = [.register target, .immediate value]) :
    statement.Loads target value := by
  refine ⟨_, Expansion.expand_of_load ld values target.isLt, rfl, ?_⟩
  intro file number registers
  refine ⟨_, Registers.runLines?_load registers value, ?_, ?_⟩
  · rw [Function.update_self, BitVec.toNat_ofInt]
    omega
  · intro other different
    rw [Function.update_of_ne different]

theorem load_operands (ld : statement.mnemonic = "ld") (passed : statement.check = .ok shape) :
    ∃ target : Fin Machine.registerCount,
      (∃ value : Nat, value < 2 ^ 64 ∧
        statement.operands.map Operand.value = [.register target, .immediate value]) ∨
      shape = [.register, .address] ∧
        ∃ name, statement.operands.map Operand.value = [.register target, .label name] := by
  obtain ⟨instruction, known, shaped, registers, fits⟩ := check_eq_ok_iff.mp passed
  rw [ld] at known
  cases known
  have member := List.mem_of_find?_eq_some shaped
  have takes := List.find?_some shaped
  simp only [List.mem_cons, List.not_mem_nil, or_false] at member
  rcases member with rfl | rfl
  · obtain ⟨index, number, values⟩ := Shape.register_number_of_takes takes
    rw [values] at registers fits
    have small := registers (.register index) List.mem_cons_self index rfl
    have inRange := Range.contains_iff.mp (fits (.unsigned64, .immediate number) (by simp) _ rfl)
    dsimp only [unsigned64Range] at inRange
    obtain ⟨value, rfl⟩ := Int.eq_ofNat_of_zero_le inRange.1
    exact ⟨⟨index, small⟩, .inl ⟨value, by omega, values⟩⟩
  · obtain ⟨first, rest, values, accepts, others⟩ := Shape.takes_cons_iff.mp takes
    obtain ⟨index, rfl⟩ := Slot.accepts_register_iff.mp accepts
    obtain ⟨second, more, rfl, accepted, ended⟩ := Shape.takes_cons_iff.mp others
    obtain ⟨name, rfl⟩ := (Slot.accepts_label_iff rfl).mp accepted
    cases Shape.takes_nil_iff.mp ended
    rw [values] at registers
    have small := registers (.register index) List.mem_cons_self index rfl
    exact ⟨⟨index, small⟩, .inr ⟨rfl, name, values⟩⟩

theorem resolve_load {index : Nat} {name : Text} (passed : statement.check = .ok [.register, .address])
    (values : statement.operands.map Operand.value = [.register index, .label name])
    (done : statement.resolve table [.register, .address] place = .ok resolved) :
    ∃ symbol, table.find? name = some symbol ∧ resolved.mnemonic = statement.mnemonic ∧
      resolved.operands.map Operand.value = [.register index, .immediate symbol.address] := by
  cases resolution_of_check passed done with
  | plain unlabelled => cases unlabelled
  | @load target operand own label symbol both register named bound =>
    rw [both, List.map_cons, List.map_singleton, register, named] at values
    cases values
    exact ⟨symbol, bound, rfl, by rw [List.map_cons, List.map_singleton, register]; rfl⟩

/-- A load that passes the check has the number of a register that exists, and a number of 64 bits or
a label. It leaves the number, or the address that its label is resolved to, in the register, and
every other register unchanged. Moreover every integer is split into five chunks of at most 4095 and
one of at most 15, which along the windows add up to its remainder modulo 2⁶⁴. -/
theorem load_leaves_value :
    (∀ (statement : Statement) (shape : Shape), statement.mnemonic = "ld" →
      statement.check = .ok shape → ∃ target : Fin Machine.registerCount,
        (∃ value : Nat, value < 2 ^ 64 ∧
          statement.operands.map Operand.value = [.register target, .immediate value] ∧
          statement.Loads target value) ∨
        ∃ name, statement.operands.map Operand.value = [.register target, .label name] ∧
          ∀ (table : SymbolTable) (place : Int) (resolved : Statement),
            statement.resolve table shape place = .ok resolved →
            ∃ address, table.address? name = some address ∧
              (address < 2 ^ 64 → resolved.Loads target address)) ∧
    ∀ value : Int,
      (∃ chunks last, (Expansion.loadChunks value).map Prod.fst = chunks ++ [last] ∧
        chunks.length = 5 ∧ (∀ chunk ∈ chunks, chunk ≤ 4095) ∧ last ≤ 15) ∧
      (Expansion.loadChunks value).map Prod.snd = Expansion.loadWindows ∧
      (Expansion.recombined 0 (Expansion.loadChunks value) : Int) = value % 2 ^ 64 := by
  refine ⟨fun statement shape ld passed => ?_, Expansion.loadChunks_split⟩
  obtain ⟨target, ⟨value, small, values⟩ | ⟨rfl, name, values⟩⟩ := load_operands ld passed
  · exact ⟨target, .inl ⟨value, small, values, loads_of_values small ld values⟩⟩
  · refine ⟨target, .inr ⟨name, values, fun table place resolved done => ?_⟩⟩
    obtain ⟨symbol, bound, same, numbers⟩ := resolve_load passed values done
    exact ⟨symbol.address, SymbolTable.address?_of_find? bound,
      fun small => loads_of_values small (same.trans ld) numbers⟩

/-- A number with bits in every window, and the address of a label. -/
theorem load_leaves_value_both :
    let line : Line := ⟨"demo", 1, [], 0, [], .content⟩
    let number : Statement := ⟨"ld", [⟨.register 2, "r2", 3, 5, false⟩,
      ⟨.immediate 0x123456789ABCDEF0, "0x123456789ABCDEF0", 7, 25, false⟩], line⟩
    let label : Statement := ⟨"ld", [⟨.register 31, "r31", 3, 6, false⟩,
      ⟨.label "END", ":END", 8, 12, false⟩], line⟩
    number.Loads ⟨2, by decide⟩ 0x123456789ABCDEF0 ∧
    ∃ resolved, label.resolve ⟨[⟨"END", 0xFFFFFFFF, none⟩], true⟩ [.register, .address] 0x1000 =
      .ok resolved ∧ resolved.Loads ⟨31, by decide⟩ 0xFFFFFFFF := by
  intro line number label
  constructor
  · obtain ⟨target, ⟨value, -, values, loads⟩ | ⟨name, values, -⟩⟩ :=
      load_leaves_value.1 number [.register, .unsigned64] rfl (by decide +kernel)
    · simp only [number, List.map_cons, List.map_nil, List.cons.injEq, and_true,
        Operand.Value.register.injEq, Operand.Value.immediate.injEq] at values
      obtain rfl : target = ⟨2, by decide⟩ := Fin.ext values.1.symm
      obtain rfl : value = 0x123456789ABCDEF0 := by omega
      exact loads
    · simp [number] at values
  · obtain ⟨target, ⟨value, -, values, -⟩ | ⟨name, values, resolves⟩⟩ :=
      load_leaves_value.1 label [.register, .address] rfl (by decide +kernel)
    · simp [label] at values
    · simp only [label, List.map_cons, List.map_nil, List.cons.injEq, and_true,
        Operand.Value.register.injEq, Operand.Value.label.injEq] at values
      obtain rfl : target = ⟨31, by decide⟩ := Fin.ext values.1.symm
      obtain ⟨address, found, loads⟩ := resolves ⟨[⟨"END", 0xFFFFFFFF, none⟩], true⟩ 0x1000 _ rfl
      rw [← values.2] at found
      cases found
      exact ⟨_, rfl, loads (by decide)⟩

end Statement

end TwoPass
