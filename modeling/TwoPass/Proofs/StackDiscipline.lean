import Mathlib.Algebra.Group.Nat.Defs
import Mathlib.Data.List.Forall2
import TwoPass.Proofs.Execution

/-! What pushes and pops do to the registers.

The machine has words of 64 bits in its registers and a storage that is known by two laws: a word that
was stored is loaded again, and storing a word does not change one that is at least eight bytes away.
Pushing registers and popping them in the opposite order then brings every one of them back, whatever
happens to the registers in between, as long as the stack pointer is the same. -/

set_option autoImplicit false

namespace TwoPass

/-- Words at these addresses do not overlap, whichever way round the address space is gone through. -/
def WordsApart (first second : BitVec 64) : Prop :=
  8 ≤ (first - second).toNat ∧ 8 ≤ (second - first).toNat

def wordBelow (address : BitVec 64) (count : Nat) : BitVec 64 := address - BitVec.ofNat 64 (8 * count)

theorem wordBelow_succ (address : BitVec 64) (count : Nat) :
    wordBelow (address - 8#64) count = wordBelow address (count + 1) := by
  unfold wordBelow
  bv_omega

/-- Fewer than 2⁶¹ words lead down from a word without coming back to it. -/
theorem wordsApart_wordBelow (address : BitVec 64) {count : Nat} (positive : 0 < count)
    (few : count < 2 ^ 61) : WordsApart (wordBelow address count) address := by
  unfold WordsApart wordBelow
  have := address.isLt
  constructor <;>
  · simp only [BitVec.toNat_sub, BitVec.toNat_ofNat]
    omega

structure Storage where
  Contents : Type
  load : Contents → BitVec 64 → BitVec 64
  store : Contents → BitVec 64 → BitVec 64 → Contents
  load_store : ∀ contents address word, load (store contents address word) address = word
  load_store_apart : ∀ contents written address word, WordsApart written address →
    load (store contents written word) address = load contents address

/-! A storage of bytes, in which a word takes eight of them and the lowest comes first. -/

namespace Storage

def loadWord (contents : BitVec 64 → BitVec 8) (address : BitVec 64) : BitVec 64 :=
  contents (address + 7#64) ++ contents (address + 6#64) ++ contents (address + 5#64) ++
    contents (address + 4#64) ++ contents (address + 3#64) ++ contents (address + 2#64) ++
    contents (address + 1#64) ++ contents (address + 0#64)

def storeWord (contents : BitVec 64 → BitVec 8) (address word : BitVec 64) :
    BitVec 64 → BitVec 8 := fun place =>
  if (place - address).toNat < 8 then word.extractLsb' (8 * (place - address).toNat) 8
  else contents place

section
variable (contents : BitVec 64 → BitVec 8) {written address : BitVec 64} (word : BitVec 64)
  {offset : Nat}

theorem storeWord_within (within : offset < 8) :
    storeWord contents address word (address + BitVec.ofNat 64 offset) =
      word.extractLsb' (8 * offset) 8 := by
  have distance : (address + BitVec.ofNat 64 offset - address).toNat = offset := by bv_omega
  rw [storeWord, distance, if_pos within]

theorem storeWord_apart (apart : WordsApart written address) (within : offset < 8) :
    storeWord contents written word (address + BitVec.ofNat 64 offset) =
      contents (address + BitVec.ofNat 64 offset) := by
  have distance : ¬(address + BitVec.ofNat 64 offset - written).toNat < 8 := by
    unfold WordsApart at apart
    bv_omega
  rw [storeWord, if_neg distance]

theorem loadWord_storeWord (address : BitVec 64) :
    loadWord (storeWord contents address word) address = word := by
  have byte (offset : Nat) (within : offset < 8) :=
    @storeWord_within contents address word offset within
  rw [loadWord, byte 7 (by decide), byte 6 (by decide), byte 5 (by decide), byte 4 (by decide),
    byte 3 (by decide), byte 2 (by decide), byte 1 (by decide), byte 0 (by decide)]
  simp (disch := decide) only [BitVec.extractLsb'_append_extractLsb'_eq_extractLsb']
  exact BitVec.extractLsb'_eq_self

theorem loadWord_storeWord_apart (apart : WordsApart written address) :
    loadWord (storeWord contents written word) address = loadWord contents address := by
  have byte (offset : Nat) (within : offset < 8) :=
    storeWord_apart contents word apart within
  rw [loadWord, byte 7 (by decide), byte 6 (by decide), byte 5 (by decide), byte 4 (by decide),
    byte 3 (by decide), byte 2 (by decide), byte 1 (by decide), byte 0 (by decide)]
  rfl

end

def bytes : Storage where
  Contents := BitVec 64 → BitVec 8
  load := loadWord
  store := storeWord
  load_store contents address word := loadWord_storeWord contents word address
  load_store_apart contents _ _ word apart := loadWord_storeWord_apart contents word apart

end Storage

structure Processor (storage : Storage) where
  registers : Registers
  contents : storage.Contents

namespace Processor

variable {storage : Storage}

def stackRegister : Fin Machine.registerCount := ⟨Machine.stackPointer, Expansion.stackPointer_lt⟩

/-- What an instruction makes of the state, given its mnemonic and what its operands denote. A word is
moved between a register and the storage at the sum of a register and a displacement. -/
def execute? (state : Processor storage) (mnemonic : Text) :
    List Operand.Value → Option (Processor storage)
  | [.register target, .immediate number] =>
    if mnemonic = "subi" then do
      let before ← state.registers.read? target
      let registers ← state.registers.write? target (before - BitVec.ofInt 64 number)
      some { state with registers }
    else do
      let registers ← state.registers.execute? mnemonic [.register target, .immediate number]
      some { state with registers }
  | [.memory base displacement _, .register source] =>
    if mnemonic = "mov" then do
      let start ← state.registers.read? base
      let word ← state.registers.read? source
      some { state with
        contents := storage.store state.contents (start + BitVec.ofInt 64 displacement) word }
    else none
  | [.register target, .memory base displacement _] =>
    if mnemonic = "mov" then do
      let start ← state.registers.read? base
      let registers ← state.registers.write? target
        (storage.load state.contents (start + BitVec.ofInt 64 displacement))
      some { state with registers }
    else none
  | _ => none

section
variable (state : Processor storage) (base register : Fin Machine.registerCount)

theorem execute?_subi (number : Nat) :
    state.execute? "subi" [.register register, .immediate number] = some { state with
      registers := Function.update state.registers register
        (state.registers register - BitVec.ofNat 64 number) } := by
  simp [execute?]

theorem execute?_addi (number : Nat) :
    state.execute? "addi" [.register register, .immediate number] = some { state with
      registers := Function.update state.registers register
        (state.registers register + BitVec.ofNat 64 number) } := by
  have added := Registers.execute?_addi state.registers register number
  have other : ("addi" : Text) ≠ "subi" := by decide
  rw [execute?, if_neg other, added]
  rfl

theorem execute?_store (place : Nat) :
    state.execute? "mov" [.memory base 0 place, .register register] = some { state with
      contents := storage.store state.contents (state.registers base) (state.registers register) } := by
  simp [execute?]

theorem execute?_load (place : Nat) :
    state.execute? "mov" [.register register, .memory base 0 place] = some { state with
      registers := Function.update state.registers register
        (storage.load state.contents (state.registers base)) } := by
  simp [execute?]

end

def runLines? (file : Text) (number : Int) (state : Processor storage) :
    List Text → Option (Processor storage)
  | [] => some state
  | raw :: rest => do
    let statement ← Statement.ofRaw? file number raw
    let next ← state.execute? statement.mnemonic (statement.operands.map (·.value.placeless))
    next.runLines? file number rest

def runExpanded? (file : Text) (number : Int) (state : Processor storage) :
    List Statement → Option (Processor storage)
  | [] => some state
  | statement :: rest => do
    let texts ← statement.expand.toOption
    let next ← state.runLines? file number texts
    next.runExpanded? file number rest

/-- The state after a push: the stack pointer is moved first, also where it is what is pushed. -/
def pushed (state : Processor storage) (source : Fin Machine.registerCount) : Processor storage :=
  let registers := Function.update state.registers stackRegister (state.registers stackRegister - 8#64)
  ⟨registers, storage.store state.contents (registers stackRegister) (registers source)⟩

/-- The state after a pop: the stack pointer is moved last, also where it is what is popped. -/
def popped (state : Processor storage) (target : Fin Machine.registerCount) : Processor storage :=
  let registers := Function.update state.registers target
    (storage.load state.contents (state.registers stackRegister))
  ⟨Function.update registers stackRegister (registers stackRegister + 8#64), state.contents⟩

/-! ### What the expansions do -/

section
variable {file : Text} {number : Int} {state next : Processor storage}

theorem runLines?_written {mnemonic : Text} {instruction : Instruction}
    {parts : List (Operand.Value × Text)} {rest : List Text}
    (found : Instruction.find? mnemonic = some instruction) (some_part : parts ≠ [])
    (spelled : ∀ part ∈ parts, part.1.Spelled part.2)
    (step : state.execute? mnemonic (parts.map Prod.fst) = some next) :
    state.runLines? file number (InstructionText.render ⟨mnemonic, parts.map Prod.snd⟩ :: rest) =
      next.runLines? file number rest := by
  obtain ⟨statement, read, rfl, denote⟩ :=
    Statement.ofRaw?_written found some_part spelled file number
  have own : InstructionText.render ⟨statement.mnemonic, parts.map Prod.snd⟩ =
      Statement.writtenText statement.mnemonic (parts.map Prod.snd) := rfl
  rw [runLines?, own, read, Option.bind_eq_bind, Option.bind_some, denote, step]
  rfl

theorem runLines?_push (state : Processor storage) (source : Fin Machine.registerCount) :
    state.runLines? file number
        ([⟨"subi", [Expansion.stackPointer, "8"]⟩,
          ⟨"mov", [Expansion.stackTop, (Expansion.registerPart source).2]⟩].map
            InstructionText.render) =
      some (state.pushed source) := by
  have pointer := Expansion.registerPart_spelled Expansion.stackPointer_lt
  have moving := state.execute?_subi stackRegister 8
  have storing := execute?_store ⟨(state.pushed source).registers, state.contents⟩
    stackRegister source 0
  refine (@runLines?_written storage file number _ _ "subi" _
    [Expansion.registerPart Machine.stackPointer, Expansion.numberPart 8] _ rfl (by simp)
    (by simp [pointer, Expansion.numberPart_spelled]) moving).trans ?_
  exact @runLines?_written storage file number _ _ "mov" _
    [Expansion.stackTopPart, Expansion.registerPart source] _ rfl (by simp)
    (by simp [Expansion.stackTopPart_spelled, Expansion.registerPart_spelled]) storing

theorem runLines?_pop (state : Processor storage) (target : Fin Machine.registerCount) :
    state.runLines? file number
        ([⟨"mov", [(Expansion.registerPart target).2, Expansion.stackTop]⟩,
          ⟨"addi", [Expansion.stackPointer, "8"]⟩].map InstructionText.render) =
      some (state.popped target) := by
  have pointer := Expansion.registerPart_spelled Expansion.stackPointer_lt
  have loading := state.execute?_load stackRegister target 0
  generalize loaded : Function.update state.registers target
    (storage.load state.contents (state.registers stackRegister)) = registers at loading
  have moving := execute?_addi ⟨registers, state.contents⟩ stackRegister 8
  refine (@runLines?_written storage file number _ _ "mov" _
    [Expansion.registerPart target, Expansion.stackTopPart] _ rfl (by simp)
    (by simp [Expansion.stackTopPart_spelled, Expansion.registerPart_spelled]) loading).trans ?_
  rw [popped, loaded]
  exact @runLines?_written storage file number _ _ "addi" _
    [Expansion.registerPart Machine.stackPointer, Expansion.numberPart 8] _ rfl (by simp)
    (by simp [pointer, Expansion.numberPart_spelled]) moving

end

end Processor

structure Statement.Concerns (mnemonic : Text) (statement : Statement)
    (register : Fin Machine.registerCount) : Prop where
  named : statement.mnemonic = mnemonic
  values : statement.operands.map Operand.value = [.register register]

theorem Statement.Concerns.registerAt_eq {mnemonic : Text} {statement : Statement}
    {register : Fin Machine.registerCount} (concerns : statement.Concerns mnemonic register) :
    Expansion.registerAt statement.operands 0 = .ok (Expansion.registerPart register).2 :=
  Expansion.registerAt_eq (by rw [concerns.values]; rfl) register.isLt

namespace Processor

variable {storage : Storage} {file : Text} {number : Int}

theorem runExpanded?_push {statement : Statement} {source : Fin Machine.registerCount}
    (pushes : statement.Concerns "push" source) (state : Processor storage) (rest : List Statement) :
    state.runExpanded? file number (statement :: rest) =
      (state.pushed source).runExpanded? file number rest := by
  have named : Instruction.pseudo? "push" = some .push := rfl
  have expanded : statement.expand = .ok ([⟨"subi", [Expansion.stackPointer, "8"]⟩,
      ⟨"mov", [Expansion.stackTop, (Expansion.registerPart source).2]⟩].map
        InstructionText.render) := by
    simp only [Statement.expand, pushes.named, named, Expansion.ofPseudo, pushes.registerAt_eq]
    rfl
  rw [runExpanded?, expanded, Except.toOption, Option.bind_eq_bind, Option.bind_some,
    runLines?_push state source]
  rfl

theorem runExpanded?_pop {statement : Statement} {target : Fin Machine.registerCount}
    (pops : statement.Concerns "pop" target) (state : Processor storage) (rest : List Statement) :
    state.runExpanded? file number (statement :: rest) =
      (state.popped target).runExpanded? file number rest := by
  have named : Instruction.pseudo? "pop" = some .pop := rfl
  have expanded : statement.expand = .ok ([⟨"mov", [(Expansion.registerPart target).2,
      Expansion.stackTop]⟩, ⟨"addi", [Expansion.stackPointer, "8"]⟩].map
        InstructionText.render) := by
    simp only [Statement.expand, pops.named, named, Expansion.ofPseudo, pops.registerAt_eq]
    rfl
  rw [runExpanded?, expanded, Except.toOption, Option.bind_eq_bind, Option.bind_some,
    runLines?_pop state target]
  rfl

theorem runExpanded?_pushes {pushes : List Statement} {saved : List (Fin Machine.registerCount)}
    (concern : List.Forall₂ (Statement.Concerns "push") pushes saved) (state : Processor storage) :
    state.runExpanded? file number pushes = some (saved.foldl pushed state) := by
  induction concern generalizing state with
  | nil => rfl
  | cons first rest ih => rw [runExpanded?_push first, ih, List.foldl_cons]

theorem runExpanded?_pops {pops : List Statement} {saved : List (Fin Machine.registerCount)}
    (concern : List.Forall₂ (Statement.Concerns "pop") pops saved) (state : Processor storage) :
    state.runExpanded? file number pops = some (saved.foldl popped state) := by
  induction concern generalizing state with
  | nil => rfl
  | cons first rest ih => rw [runExpanded?_pop first, ih, List.foldl_cons]

/-! ### What the stack keeps -/

section
variable {register : Fin Machine.registerCount} {saved : List (Fin Machine.registerCount)}

@[simp] theorem pushed_stackRegister (state : Processor storage)
    (source : Fin Machine.registerCount) :
    (state.pushed source).registers stackRegister = state.registers stackRegister - 8#64 := by
  simp [pushed]

theorem pushed_of_ne (state : Processor storage) (source : Fin Machine.registerCount)
    (other : register ≠ stackRegister) :
    (state.pushed source).registers register = state.registers register := by
  simp [pushed, other]

theorem popped_stackRegister (state : Processor storage) {target : Fin Machine.registerCount}
    (other : target ≠ stackRegister) :
    (state.popped target).registers stackRegister = state.registers stackRegister + 8#64 := by
  simp [popped, other.symm]

theorem popped_self (state : Processor storage) :
    (state.popped stackRegister).registers stackRegister =
      storage.load state.contents (state.registers stackRegister) + 8#64 := by
  simp [popped]

theorem load_pushed (state : Processor storage) (source : Fin Machine.registerCount) :
    storage.load (state.pushed source).contents (state.registers stackRegister - 8#64) =
      (state.pushed source).registers source := by
  rw [← pushed_stackRegister state source]
  exact storage.load_store _ _ _

theorem load_foldl_pushed (saved : List (Fin Machine.registerCount)) (state : Processor storage)
    {address : BitVec 64}
    (apart : ∀ count, 0 < count → count ≤ saved.length →
      WordsApart (wordBelow (state.registers stackRegister) count) address) :
    storage.load (saved.foldl pushed state).contents address =
      storage.load state.contents address := by
  induction saved generalizing state with
  | nil => rfl
  | cons source rest ih =>
    rw [List.foldl_cons, ih]
    · -- the first word is stored right below the stack pointer
      apply storage.load_store_apart
      have first := apart 1 Nat.one_pos (by simp)
      rwa [wordBelow, ← pushed_stackRegister state source] at first
    · intro count positive within
      rw [pushed_stackRegister, wordBelow_succ]
      exact apart (count + 1) count.succ_pos (Nat.succ_le_succ within)

theorem contents_foldl_popped (saved : List (Fin Machine.registerCount))
    (state : Processor storage) : (saved.foldl popped state).contents = state.contents := by
  induction saved generalizing state with
  | nil => rfl
  | cons target rest ih => rw [List.foldl_cons, ih]; rfl

/-- What pushing registers and popping them in the opposite order brings back. -/
structure Restored (saved : List (Fin Machine.registerCount)) (before after : Processor storage) :
    Prop where
  registers : ∀ register ∈ saved, after.registers register = before.registers register
  pointer : after.registers stackRegister = before.registers stackRegister

theorem Restored.cons {state middle : Processor storage} {first : Fin Machine.registerCount}
    (other : first ≠ stackRegister) (others : ∀ register ∈ saved, register ≠ stackRegister)
    (inner : Restored saved (state.pushed first) middle)
    (kept : storage.load middle.contents (state.registers stackRegister - 8#64) =
      state.registers first) :
    Restored (first :: saved) state (middle.popped first) := by
  have top : middle.registers stackRegister = state.registers stackRegister - 8#64 := by
    rw [inner.pointer, pushed_stackRegister]
  have loaded : (middle.popped first).registers first = state.registers first := by
    simp [popped, other, top, kept]
  constructor
  · intro register member
    by_cases same : register = first
    · rw [same, loaded]
    · have listed : register ∈ saved := (List.mem_cons.mp member).resolve_left same
      have apart := others register listed
      rw [← pushed_of_ne state first apart, ← inner.registers register listed]
      simp [popped, apart, same]
  · rw [popped_stackRegister middle other, top, BitVec.sub_add_cancel]

/-- Registers that are pushed and then popped in the opposite order come back, whatever becomes of the
registers in between. -/
theorem restored_of_length_le (saved : List (Fin Machine.registerCount)) (state : Processor storage)
    (others : ∀ register ∈ saved, register ≠ stackRegister) (few : saved.length ≤ 2 ^ 61)
    {overwritten : Registers}
    (kept : overwritten stackRegister = (saved.foldl pushed state).registers stackRegister) :
    Restored saved state
      (saved.reverse.foldl popped ⟨overwritten, (saved.foldl pushed state).contents⟩) := by
  induction saved generalizing state with
  | nil => exact ⟨by simp, kept⟩
  | cons first rest ih =>
    rw [List.forall_mem_cons] at others
    rw [List.length_cons] at few
    rw [List.reverse_cons, List.foldl_append, List.foldl_cons, List.foldl_nil, List.foldl_cons]
    apply Restored.cons others.1 others.2 (ih (state.pushed first) others.2 (by omega) kept)
    -- none of the later words comes near the first one
    rw [contents_foldl_popped, load_foldl_pushed, load_pushed, pushed_of_ne state first others.1]
    intro count positive within
    rw [pushed_stackRegister]
    exact wordsApart_wordBelow _ positive (by omega)

theorem registers_popped_pushed (state : Processor storage)
    (register : Fin Machine.registerCount) :
    ((state.pushed register).popped register).registers = state.registers := by
  funext other
  by_cases own : register = stackRegister
  · -- the stack pointer is pushed after it was moved, and moved back after it was popped
    by_cases pointer : other = stackRegister
    · rw [own, pointer, popped_self, pushed_stackRegister, load_pushed, pushed_stackRegister,
        BitVec.sub_add_cancel]
    · simp [popped, own, pointer, pushed_of_ne]
  · by_cases pointer : other = stackRegister
    · rw [pointer, popped_stackRegister _ own, pushed_stackRegister, BitVec.sub_add_cancel]
    · by_cases same : other = register
      · simp [popped, same, own, load_pushed, pushed_of_ne]
      · simp [popped, pointer, same, pushed_of_ne]

end

/-- Pushes and pops keep stack discipline. Registers other than the stack pointer, at most 2⁶¹ and with
any repetitions, are pushed; then all registers but the stack pointer may be overwritten; and then the
same registers are popped in the opposite order. The expansions can be executed, and bring back each of
these registers and the stack pointer. A push of any register, the stack pointer included, and a pop of
it at once leave all registers as they were. -/
theorem stack_discipline (storage : Storage) (file : Text) (number : Int) :
    (∀ (saved : List (Fin Machine.registerCount)) (pushes pops : List Statement)
        (state : Processor storage),
      (∀ register ∈ saved, register ≠ stackRegister) → saved.length ≤ 2 ^ 61 →
      List.Forall₂ (Statement.Concerns "push") pushes saved →
      List.Forall₂ (Statement.Concerns "pop") pops saved.reverse →
      ∃ pushed, state.runExpanded? file number pushes = some pushed ∧
        ∀ overwritten : Registers, overwritten stackRegister = pushed.registers stackRegister →
          ∃ popped,
            runExpanded? file number ⟨overwritten, pushed.contents⟩ pops = some popped ∧
            (∀ register ∈ saved, popped.registers register = state.registers register) ∧
            popped.registers stackRegister = state.registers stackRegister) ∧
    ∀ (register : Fin Machine.registerCount) (push pop : Statement) (state : Processor storage),
      push.Concerns "push" register → pop.Concerns "pop" register →
      ∃ after, state.runExpanded? file number [push, pop] = some after ∧
        after.registers = state.registers := by
  constructor
  · intro saved pushes pops state others few pushing popping
    refine ⟨_, runExpanded?_pushes pushing state, ?_⟩
    intro overwritten kept
    refine ⟨_, runExpanded?_pops popping _, ?_⟩
    have restored := restored_of_length_le saved state others few kept
    exact ⟨restored.registers, restored.pointer⟩
  · intro register push pop state pushing popping
    refine ⟨(state.pushed register).popped register, ?_, registers_popped_pushed state register⟩
    rw [runExpanded?_push pushing, runExpanded?_pop popping]
    rfl

/-- Three pushes on bytes, one register twice, across the lower end of the address space, with all other
registers cleared before the pops; and the stack pointer pushed and popped. -/
theorem stack_discipline_bytes :
    let line : Line := ⟨"demo", 1, [], 0, [], .content⟩
    let push (index : Nat) (name : Text) : Statement :=
      ⟨"push", [⟨.register index, name, 5, 7, false⟩], line⟩
    let pop (index : Nat) (name : Text) : Statement :=
      ⟨"pop", [⟨.register index, name, 4, 6, false⟩], line⟩
    let state : Processor .bytes :=
      ⟨fun register => BitVec.ofNat 64 (register + 1 - register / 31 * 20), fun _ => 0⟩
    let cleared (pointer : BitVec 64) : Registers :=
      fun register => if register = stackRegister then pointer else 0
    state.registers stackRegister = 12 ∧
      (∃ pushed popped,
        state.runExpanded? "demo" 1 [push 1 "r1", push 2 "r2", push 1 "r1"] = some pushed ∧
        runExpanded? "demo" 1 ⟨cleared (pushed.registers stackRegister), pushed.contents⟩
          [pop 1 "r1", pop 2 "r2", pop 1 "r1"] = some popped ∧
        popped.registers ⟨1, by decide⟩ = 2 ∧ popped.registers ⟨2, by decide⟩ = 3 ∧
        popped.registers stackRegister = 12) ∧
      ∃ after, state.runExpanded? "demo" 1 [push 31 "r31", pop 31 "r31"] = some after ∧
        after.registers = state.registers := by
  intro line push pop state cleared
  obtain ⟨lists, single⟩ := stack_discipline .bytes "demo" 1
  let saved : List (Fin Machine.registerCount) := [⟨1, by decide⟩, ⟨2, by decide⟩, ⟨1, by decide⟩]
  have others : ∀ register ∈ saved, register ≠ stackRegister := by decide
  refine ⟨rfl, ?_, single stackRegister (push 31 "r31") (pop 31 "r31") state ⟨rfl, rfl⟩ ⟨rfl, rfl⟩⟩
  obtain ⟨pushed, pushes, overwriting⟩ := lists saved [push 1 "r1", push 2 "r2", push 1 "r1"]
    [pop 1 "r1", pop 2 "r2", pop 1 "r1"] state others (by decide)
    (.cons ⟨rfl, rfl⟩ (.cons ⟨rfl, rfl⟩ (.cons ⟨rfl, rfl⟩ .nil)))
    (.cons ⟨rfl, rfl⟩ (.cons ⟨rfl, rfl⟩ (.cons ⟨rfl, rfl⟩ .nil)))
  obtain ⟨popped, pops, restored, pointer⟩ :=
    overwriting (cleared (pushed.registers stackRegister)) (if_pos rfl)
  exact ⟨pushed, popped, pushes, pops, restored _ (by simp [saved]), restored _ (by simp [saved]), pointer⟩

end Processor

end TwoPass
