import TwoPass.Command.Arguments
import TwoPass.Text.ControlSequence

/-! What the command says about itself and about its use. -/

set_option autoImplicit false

namespace TwoPass.Command

def version : Text := "1.0.0"

def versionText : Text := "tkasm, version " ++ version ++ "\n"

def usageLine : Text := "Usage: tkasm [OPTIONS] INPUT_FILE\n"

def helpText : Text :=
  usageLine ++
  "\n" ++
  "  Assemble Tinker source code.\n" ++
  "\n" ++
  "  INPUT_FILE is the assembly source file to assemble.\n" ++
  "\n" ++
  "  Labels are resolved and pseudo-instructions (in, out, clr, halt, push, pop,\n" ++
  "  ld) are expanded, producing one primitive Tinker instruction per line.\n" ++
  "\n" ++
  "  Examples:\n" ++
  "      tkasm prog.tinker              # Outputs prog.tk\n" ++
  "      tkasm prog.tinker -o out.tk    # Specify output file\n" ++
  "      tkasm prog.tinker -l prog.lst  # Also write a listing\n" ++
  "\n" ++
  "Options:\n" ++
  "  -o, --output FILE    Output file (default: input.tk)\n" ++
  "  -l, --listing FILE   Generate listing file\n" ++
  "  -s, --symbols FILE   Generate symbol file\n" ++
  "  --base-address ADDR  Address of the first byte, decimal or 0x hex (default:\n" ++
  "                       0x1000)\n" ++
  "  --keep-labels        Keep label definitions in the output as NAME: lines\n" ++
  "  --allow-undefined    Report undefined labels and pass their lines through\n" ++
  "                       unresolved instead of failing\n" ++
  "  -v, --verbose        Verbose output\n" ++
  "  --version            Show the version and exit.\n" ++
  "  --help               Show this message and exit.\n"

namespace UsageFault

def standsAlone : UsageFault → Bool
  | .valueMissing _ | .valueUnexpected _ => true
  | _ => false

def message : UsageFault → Text
  | .valueMissing option => "Option " ++ Text.apostrophized option ++ " requires an argument."
  | .valueUnexpected option => "Option " ++ Text.apostrophized option ++ " does not take a value."
  | .unknownOption name [] => "No such option: " ++ name
  | .unknownOption name [similar] =>
    "No such option: " ++ name ++ " Did you mean " ++ similar ++ "?"
  | .unknownOption name similar =>
    "No such option: " ++ name ++ " (Possible options: " ++
      Text.join ", " (similar.mergeSort Text.le) ++ ")"
  | .inputMissing => "Missing argument 'INPUT_FILE'."
  | .extraArguments [argument] => "Got unexpected extra argument (" ++ argument ++ ")"
  | .extraArguments arguments =>
    "Got unexpected extra arguments (" ++ Text.join " " arguments ++ ")"
  | .invalidValue parameter reason => "Invalid value for " ++ parameter ++ ": " ++ reason

def text (fault : UsageFault) : Text :=
  let reminder : Text :=
    if fault.standsAlone then [] else usageLine ++ "Try 'tkasm --help' for help.\n\n"
  Text.withoutSequences (reminder ++ "Error: " ++ fault.message ++ "\n")

end UsageFault

end TwoPass.Command
