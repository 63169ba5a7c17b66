import TwoPass.Instruction
import TwoPass.Numeral

/-! What can be chosen about a run. -/

set_option autoImplicit false

namespace TwoPass

/-- Options of a run: the address of the first byte, whether label lines appear in the output,
whether lines with undefined labels are passed through, and how many fatal problems are collected
before giving up. -/
structure Settings where
  base : Nat := Machine.defaultBase
  keepLabels : Bool := false
  allowUndefined : Bool := false
  maxErrors : Nat := 100
  base_le : base ≤ Machine.maxAddress := by decide
  maxErrors_pos : 0 < maxErrors := by decide

namespace Settings

inductive Fault where
  | base (address : Int)
  | maxErrors
  deriving DecidableEq, Repr

def Fault.message : Fault → Text
  | .base address => "base address " ++ Numeral.hex address ++ " does not fit in 32 bits"
  | .maxErrors => "max_errors must be at least 1"

def make (base : Int) (keepLabels allowUndefined : Bool) (maxErrors : Int) : Except Fault Settings :=
  if base_ok : 0 ≤ base ∧ base ≤ Machine.maxAddress then
    if maxErrors_ok : 1 ≤ maxErrors then
      .ok { base := base.toNat, keepLabels, allowUndefined, maxErrors := maxErrors.toNat,
            base_le := by omega, maxErrors_pos := by omega }
    else .error .maxErrors
  else .error (.base base)

end Settings

end TwoPass
