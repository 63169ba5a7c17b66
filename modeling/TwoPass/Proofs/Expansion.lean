import TwoPass.Proofs.Primitive

/-! What pseudo-instructions stand for.

Each stands for as many instructions as its size in the catalog has room for, and with operands that
passed the check all of them are primitive. -/

set_option autoImplicit false

namespace TwoPass

namespace Pseudo

def shapes : Pseudo → List Shape
  | .input | .output => [[.register, .register]]
  | .clear | .push | .pop => [[.register]]
  | .halt => [[]]
  | .load => [[.register, .unsigned64], [.register, .address]]

def count : Pseudo → Nat
  | .input | .output | .clear | .halt => 1
  | .push | .pop => 2
  | .load => 12

/-- Operands from which the instructions can be made: labels have been replaced by numbers. -/
inductive Ready : Pseudo → List Operand.Value → Prop
  | input {target device : Nat} : target < Machine.registerCount → device < Machine.registerCount →
    Ready .input [.register target, .register device]
  | output {device source : Nat} : device < Machine.registerCount → source < Machine.registerCount →
    Ready .output [.register device, .register source]
  | clear {target : Nat} : target < Machine.registerCount → Ready .clear [.register target]
  | halt : Ready .halt []
  | push {source : Nat} : source < Machine.registerCount → Ready .push [.register source]
  | pop {target : Nat} : target < Machine.registerCount → Ready .pop [.register target]
  | load {target : Nat} {value : Int} : target < Machine.registerCount →
    Ready .load [.register target, .immediate value]

end Pseudo

namespace Instruction

theorem size_of_mem_catalog {instruction : Instruction} (member : instruction ∈ catalog) :
    instruction.size = Machine.instructionSize * instruction.pseudo.elim 1 Pseudo.count := by
  have sizes : ∀ entry ∈ catalog,
      entry.size = Machine.instructionSize * entry.pseudo.elim 1 Pseudo.count := by decide
  exact sizes instruction member

theorem shapes_of_pseudo {instruction : Instruction} {pseudo : Pseudo}
    (member : instruction ∈ catalog) (stands : instruction.pseudo = some pseudo) :
    instruction.shapes = pseudo.shapes := by
  have shapes : ∀ entry ∈ catalog, entry.pseudo.all (fun pseudo => entry.shapes = pseudo.shapes) := by
    decide
  simpa [stands] using shapes instruction member

end Instruction

namespace Expansion

variable {operands : List Operand} {instructions : List InstructionText}

theorem length_of_ofPseudo {pseudo : Pseudo}
    (expanded : ofPseudo operands pseudo = .ok instructions) :
    instructions.length = pseudo.count := by
  cases pseudo with
  | halt =>
    cases expanded
    rfl
  | clear | push | pop =>
    obtain ⟨register, -, made⟩ := Except.bind_eq_ok_iff.mp expanded
    cases made
    rfl
  | input | output =>
    obtain ⟨first, -, rest⟩ := Except.bind_eq_ok_iff.mp expanded
    obtain ⟨second, -, made⟩ := Except.bind_eq_ok_iff.mp rest
    cases made
    rfl
  | load =>
    obtain ⟨target, -, rest⟩ := Except.bind_eq_ok_iff.mp expanded
    obtain ⟨value, -, made⟩ := Except.bind_eq_ok_iff.mp rest
    cases made
    rfl

/-- What is seen through windows of at most 12 bits fits an immediate. -/
theorem mem_chunksFrom {value : Int} {remaining : Nat} {windows : List Window} {chunk : Nat × Window}
    (narrow : ∀ window ∈ windows, window.width ≤ 12)
    (member : chunk ∈ chunksFrom value remaining windows) :
    chunk.2 ∈ windows ∧ chunk.1 ≤ 4095 := by
  induction windows generalizing remaining with
  | nil => cases member
  | cons window rest ih =>
    obtain ⟨width, others⟩ := List.forall_mem_cons.mp narrow
    rcases List.mem_cons.mp member with rfl | later
    · refine ⟨List.mem_cons_self, ?_⟩
      have positive : (0 : Int) < 2 ^ window.width := Int.pow_pos (by decide)
      -- the remainder is never negative, so no bits are lost when it is taken as a natural number
      have nonnegative :=
        Int.emod_nonneg (value / 2 ^ (remaining - window.width)) (Int.ne_of_gt positive)
      have below := Int.emod_lt_of_pos (value / 2 ^ (remaining - window.width)) positive
      have bound : (2 : Int) ^ window.width ≤ 2 ^ 12 := by
        exact_mod_cast Nat.pow_le_pow_right (show 0 < 2 by decide) width
      dsimp only
      omega
    · exact ⟨List.mem_cons_of_mem _ (ih others later).1, (ih others later).2⟩

theorem mem_loadChunks {value : Int} {chunk : Nat × Window} (member : chunk ∈ loadChunks value) :
    chunk.1 ≤ 4095 ∧ chunk.2.shift ≤ 4095 := by
  have narrow : ∀ window ∈ loadWindows, window.width ≤ 12 := by decide
  have shifts : ∀ window ∈ loadWindows, window.shift ≤ 4095 := by decide
  obtain ⟨inside, small⟩ := mem_chunksFrom narrow member
  exact ⟨small, shifts chunk.2 inside⟩

def registerPart (index : Nat) : Operand.Value × Text :=
  (.register index, "r" ++ Numeral.decimalNat index)

def numberPart (value : Nat) : Operand.Value × Text :=
  (.immediate value, Numeral.decimalNat value)

def stackTopPart : Operand.Value × Text := (.memory Machine.stackPointer 0 0, stackTop)

theorem stackPointer_lt : Machine.stackPointer < Machine.registerCount := by decide

theorem registerPart_spelled {index : Nat} (small : index < Machine.registerCount) :
    (registerPart index).1.Spelled (registerPart index).2 := by
  rw [Machine.registerCount] at small
  exact .register (.ofRegister (Numeral.short_of_le_maxAddress (by rw [Machine.maxAddress]; omega)))

theorem numberPart_spelled {value : Nat} (small : value ≤ 4095) :
    (numberPart value).1.Spelled (numberPart value).2 :=
  .immediate (.ofNat (Numeral.short_of_le_maxAddress (by rw [Machine.maxAddress]; omega)))

theorem stackTopPart_spelled : stackTopPart.1.Spelled stackTopPart.2 :=
  .memory (.ofRegister (by decide)) (@Lexeme.Spelled.ofNat 0 (by decide))

theorem registerAt_eq {operands : List Operand} {position index : Nat}
    (there : (operands.map Operand.value)[position]? = some (.register index))
    (small : index < Machine.registerCount) :
    registerAt operands position = .ok (registerPart index).2 := by
  rw [List.getElem?_map, Option.map_eq_some_iff] at there
  obtain ⟨operand, found, value⟩ := there
  have short : (Numeral.decimalNat index).length ≤ Numeral.digitLimit :=
    Numeral.short_of_le_maxAddress (by rw [Machine.maxAddress]; rw [Machine.registerCount] at small; omega)
  simp only [registerAt, found, value, Operand.Value.text, Numeral.write_of_short short]
  rfl

theorem numberAt_eq {operands : List Operand} {position : Nat} {value : Int}
    (there : (operands.map Operand.value)[position]? = some (.immediate value)) :
    numberAt operands position = .ok value := by
  rw [List.getElem?_map, Option.map_eq_some_iff] at there
  obtain ⟨operand, found, same⟩ := there
  simp only [numberAt, found, same, Operand.Value.number?]

theorem expand_of_load {statement : Statement} {index : Nat} {value : Int}
    (ld : statement.mnemonic = "ld")
    (values : statement.operands.map Operand.value = [.register index, .immediate value])
    (small : index < Machine.registerCount) :
    statement.expand = .ok ((load (registerPart index).2 value).map InstructionText.render) := by
  have named : Instruction.pseudo? "ld" = some .load := rfl
  have first := @registerAt_eq statement.operands 0 index (by rw [values]; rfl) small
  have second := @numberAt_eq statement.operands 1 value (by rw [values]; rfl)
  simp only [Statement.expand, ld, named, ofPseudo, first, second]
  rfl

theorem unsigned12_fits {value : Nat} (listed : value ≤ 4095) :
    Slot.unsigned12.Fits (.immediate value) := by
  intro range found
  cases found
  rw [Range.contains_iff]
  dsimp only [unsigned12Range]
  omega

theorem clearing_primitive {target : Nat} (small : target < Machine.registerCount) :
    Primitive (clearing (registerPart target).2).render := by
  have spelled := registerPart_spelled small
  refine @Primitive.ofWritten "xor" (Instruction.threeRegisters "xor")
    [.register, .register, .register]
    [registerPart target, registerPart target, registerPart target] rfl rfl rfl (by simp)
    (by simp [spelled]) ⟨rfl, ?_, ?_⟩
  · simp [registerPart, Operand.Value.register?, small]
  · simp [registerPart, Slot.Fits]

theorem privileged_primitive {first second function : Nat} (small : first < Machine.registerCount)
    (small' : second < Machine.registerCount) (listed : function ≤ 4095) :
    Primitive (privileged (registerPart first).2 (registerPart second).2 function).render := by
  have none' : 0 < Machine.registerCount := by decide
  have spelled := registerPart_spelled small
  have spelled' := registerPart_spelled small'
  refine @Primitive.ofWritten "priv"
    ⟨"priv", [[.register, .register, .register, .unsigned12]], .fixed4, none⟩
    [.register, .register, .register, .unsigned12]
    [registerPart first, registerPart second, registerPart 0, numberPart function] rfl rfl rfl
    (by simp) (by simp [spelled, spelled', registerPart_spelled none', numberPart_spelled listed])
    ⟨rfl, ?_, ?_⟩
  · simp [registerPart, numberPart, Operand.Value.register?, small, small', none']
  · simpa [registerPart, numberPart, Slot.Fits] using unsigned12_fits listed

theorem numbered_primitive {mnemonic : Text} {target value : Nat}
    (found : Instruction.find? mnemonic = some (Instruction.registerAndUnsigned mnemonic))
    (small : target < Machine.registerCount) (listed : value ≤ 4095) :
    Primitive (InstructionText.render ⟨mnemonic, [(registerPart target).2, (numberPart value).2]⟩) := by
  refine @Primitive.ofWritten mnemonic _ [.register, .unsigned12]
    [registerPart target, numberPart value] found rfl rfl (by simp)
    (by simp [registerPart_spelled small, numberPart_spelled listed]) ⟨rfl, ?_, ?_⟩
  · simp [registerPart, numberPart, Operand.Value.register?, small]
  · simpa [registerPart, numberPart, Slot.Fits] using unsigned12_fits listed

theorem pushing_primitive {source : Nat} (small : source < Machine.registerCount) :
    Primitive (InstructionText.render ⟨"mov", [stackTop, (registerPart source).2]⟩) := by
  refine @Primitive.ofWritten "mov" _ [.memory, .register] [stackTopPart, registerPart source]
    rfl rfl rfl (by simp) (by simp [stackTopPart_spelled, registerPart_spelled small]) ⟨rfl, ?_, ?_⟩
  · simp [registerPart, stackTopPart, Operand.Value.register?, small, stackPointer_lt]
  · simp [registerPart, stackTopPart, Slot.Fits, signed12Range, Range.contains]

theorem popping_primitive {target : Nat} (small : target < Machine.registerCount) :
    Primitive (InstructionText.render ⟨"mov", [(registerPart target).2, stackTop]⟩) := by
  refine @Primitive.ofWritten "mov" _ [.register, .memory] [registerPart target, stackTopPart]
    rfl rfl rfl (by simp) (by simp [stackTopPart_spelled, registerPart_spelled small]) ⟨rfl, ?_, ?_⟩
  · simp [registerPart, stackTopPart, Operand.Value.register?, small, stackPointer_lt]
  · simp [registerPart, stackTopPart, Slot.Fits, signed12Range, Range.contains]

theorem load_primitive {target : Nat} (small : target < Machine.registerCount) (value : Int) :
    ∀ written ∈ load (registerPart target).2 value, Primitive written.render := by
  rw [load, List.forall_mem_cons]
  refine ⟨clearing_primitive small, ?_⟩
  intro written member
  obtain ⟨entry, inside, member⟩ := List.mem_flatMap.mp member
  obtain ⟨chunk, shift⟩ := mem_loadChunks inside
  have addition := numbered_primitive (show Instruction.find? "addi" = some _ from rfl) small chunk
  have shifting := numbered_primitive (show Instruction.find? "shftli" = some _ from rfl) small shift
  unfold loadStep at member
  dsimp only at member
  split at member
  · rw [List.mem_singleton] at member
    subst member
    exact addition
  · simp only [List.mem_cons, List.not_mem_nil, or_false] at member
    rcases member with rfl | rfl
    · exact addition
    · exact shifting

theorem ofPseudo_of_ready {pseudo : Pseudo} (ready : pseudo.Ready (operands.map Operand.value)) :
    ∃ instructions, ofPseudo operands pseudo = .ok instructions := by
  have register {position index : Nat} (small : index < Machine.registerCount)
      (there : (operands.map Operand.value)[position]? = some (.register index)) :
      registerAt operands position = .ok (registerPart index).2 := registerAt_eq there small
  have number {position : Nat} {value : Int}
      (there : (operands.map Operand.value)[position]? = some (.immediate value)) :
      numberAt operands position = .ok value := numberAt_eq there
  generalize operands.map Operand.value = values at ready register number
  cases ready with
  | input first second | output first second =>
    rw [ofPseudo, @register 0 _ first rfl, @register 1 _ second rfl]
    exact ⟨_, rfl⟩
  | clear small | push small | pop small =>
    rw [ofPseudo, @register 0 _ small rfl]
    exact ⟨_, rfl⟩
  | halt => exact ⟨_, rfl⟩
  | @load target value small =>
    rw [ofPseudo, @register 0 _ small rfl, @number 1 value rfl]
    exact ⟨_, rfl⟩

theorem primitive_of_ofPseudo {pseudo : Pseudo} (ready : pseudo.Ready (operands.map Operand.value))
    (expanded : ofPseudo operands pseudo = .ok instructions) :
    ∀ written ∈ instructions, Primitive written.render := by
  have register {position index : Nat} (small : index < Machine.registerCount)
      (there : (operands.map Operand.value)[position]? = some (.register index)) :
      registerAt operands position = .ok (registerPart index).2 := registerAt_eq there small
  have number {position : Nat} {value : Int}
      (there : (operands.map Operand.value)[position]? = some (.immediate value)) :
      numberAt operands position = .ok value := numberAt_eq there
  -- what the operands are is known by their values alone
  generalize operands.map Operand.value = values at ready register number
  cases ready with
  | input target device =>
    rw [ofPseudo, @register 0 _ target rfl, @register 1 _ device rfl] at expanded
    cases expanded
    exact List.forall_mem_singleton.mpr (privileged_primitive target device (by decide))
  | output device source =>
    rw [ofPseudo, @register 0 _ device rfl, @register 1 _ source rfl] at expanded
    cases expanded
    exact List.forall_mem_singleton.mpr (privileged_primitive device source (by decide))
  | clear target =>
    rw [ofPseudo, @register 0 _ target rfl] at expanded
    cases expanded
    exact List.forall_mem_singleton.mpr (clearing_primitive target)
  | halt =>
    cases expanded
    exact List.forall_mem_singleton.mpr
      (@privileged_primitive 0 0 0 (by decide) (by decide) (by decide))
  | push source =>
    rw [ofPseudo, @register 0 _ source rfl] at expanded
    cases expanded
    rw [List.forall_mem_cons, List.forall_mem_singleton]
    exact ⟨@numbered_primitive "subi" _ 8 rfl stackPointer_lt (by decide), pushing_primitive source⟩
  | pop target =>
    rw [ofPseudo, @register 0 _ target rfl] at expanded
    cases expanded
    rw [List.forall_mem_cons, List.forall_mem_singleton]
    exact ⟨popping_primitive target, @numbered_primitive "addi" _ 8 rfl stackPointer_lt (by decide)⟩
  | @load target value small =>
    rw [ofPseudo, @register 0 _ small rfl, @number 1 _ rfl] at expanded
    cases expanded
    exact load_primitive small value

end Expansion

end TwoPass
