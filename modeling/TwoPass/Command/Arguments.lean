import TwoPass.Text.Quoted
import TwoPass.Text.Similarity

/-! The words of a command line, sorted into options and other arguments.

Options and arguments may be mixed. A long option has its value after an equals sign or in the next
word, a short one in the rest of its word or in the next word. Short options without values can
share a word. After the word `--` everything is an argument. -/

set_option autoImplicit false

namespace TwoPass.Command

inductive OptionName where
  | output
  | listing
  | symbols
  | baseAddress
  | keepLabels
  | allowUndefined
  | verbose
  | version
  | help
  deriving DecidableEq, Repr

namespace OptionName

def all : List OptionName :=
  [.output, .listing, .symbols, .baseAddress, .keepLabels, .allowUndefined, .verbose, .version,
   .help]

def long : OptionName → Text
  | .output => "--output"
  | .listing => "--listing"
  | .symbols => "--symbols"
  | .baseAddress => "--base-address"
  | .keepLabels => "--keep-labels"
  | .allowUndefined => "--allow-undefined"
  | .verbose => "--verbose"
  | .version => "--version"
  | .help => "--help"

def short? : OptionName → Option Text
  | .output => some "-o"
  | .listing => some "-l"
  | .symbols => some "-s"
  | .verbose => some "-v"
  | _ => none

def takesValue : OptionName → Bool
  | .output | .listing | .symbols | .baseAddress => true
  | _ => false

def ofLong? (name : Text) : Option OptionName := all.find? (·.long == name)

def ofShort? (name : Text) : Option OptionName := all.find? (·.short? == some name)

def title (option : OptionName) : Text :=
  match option.short? with
  | some short => Text.apostrophized short ++ " / " ++ Text.apostrophized option.long
  | none => Text.apostrophized option.long

end OptionName

inductive UsageFault where
  | valueMissing (option : Text)
  | valueUnexpected (option : Text)
  | unknownOption (name : Text) (similar : List Text)
  | inputMissing
  | extraArguments (arguments : List Text)
  | invalidValue (parameter reason : Text)
  deriving DecidableEq, Repr

structure Arguments where
  options : List (OptionName × Text) := []
  others : List Text := []
  deriving DecidableEq, Repr

namespace Arguments

def addOption (option : OptionName) (value : Text) (arguments : Arguments) : Arguments :=
  { arguments with options := (option, value) :: arguments.options }

def addOther (word : Text) (arguments : Arguments) : Arguments :=
  { arguments with others := word :: arguments.others }

inductive Reading where
  /-- Options without values. -/
  | flags (options : List OptionName)
  /-- Options, the last of them with its value. -/
  | valued (options : List OptionName) (last : OptionName) (value : Text)
  /-- Options, the last of them with its value in the next word; `written` is how it was given. -/
  | awaiting (options : List OptionName) (last : OptionName) (written : Text)
  deriving DecidableEq, Repr

def readShort (before : List OptionName) : Text → Except UsageFault Reading
  | [] => .ok (.flags before)
  | letter :: rest =>
    match OptionName.ofShort? ['-', letter] with
    | none => .error (.unknownOption ['-', letter] [])
    | some option =>
      if !option.takesValue then readShort (before ++ [option]) rest
      else if rest.isEmpty then .ok (.awaiting before option ['-', letter])
      else .ok (.valued before option rest)

def readLong (option : OptionName) (written : Text) (value : Option Text) :
    Except UsageFault Reading :=
  match option.takesValue, value with
  | true, some value => .ok (.valued [] option value)
  | true, none => .ok (.awaiting [] option written)
  | false, some _ => .error (.valueUnexpected written)
  | false, none => .ok (.flags [option])

def splitValue (word : Text) : Text × Option Text :=
  match word.dropWhile (· != '=') with
  | [] => (word, none)
  | _ :: value => (word.takeWhile (· != '='), some value)

def readWord (word : Text) : Except UsageFault Reading :=
  let (name, value) := splitValue word
  match OptionName.ofLong? name with
  | some option => readLong option name value
  | none =>
    if Text.startsWith word "--" then
      .error (.unknownOption name
        (Text.Similarity.closest name (OptionName.all.map OptionName.long)))
    else readShort [] (word.drop 1)

def addFlags (flags : List OptionName) (arguments : Arguments) : Arguments :=
  { arguments with options := flags.map (·, []) ++ arguments.options }

def read : List Text → Except UsageFault Arguments
  | [] => .ok {}
  | word :: rest =>
    if word == "--" then .ok { others := rest }
    else if Text.startsWith word "-" && word.length > 1 then
      match readWord word with
      | .error fault => .error fault
      | .ok (.flags flags) => addFlags flags <$> read rest
      | .ok (.valued flags last value) => (addFlags flags ∘ addOption last value) <$> read rest
      | .ok (.awaiting flags last written) =>
        match rest with
        | [] => .error (.valueMissing written)
        | value :: rest => (addFlags flags ∘ addOption last value) <$> read rest
    else addOther word <$> read rest

/-- The value of an option; the last one given counts. -/
def value? (arguments : Arguments) (option : OptionName) : Option Text :=
  arguments.options.reverse.lookup option

def has (arguments : Arguments) (option : OptionName) : Bool := (arguments.value? option).isSome

end Arguments

end TwoPass.Command
