import SceneScript.Command.Check
import SceneScript.Command.New

/-! # Command line arguments

Options may stand before or after the subcommand, which has options and one word of its own. An
option takes its value from the same argument or from the next one, and may be given once at each
of the two levels; the value given after the subcommand is the one that counts. After two dashes
every argument is a word.
-/

namespace SceneScript

/-- The options of the command line. -/
inductive Flag where
  | config
  | logLevel
  | format
  | directory
  | noFileNameCheck
  | help
  | version
  deriving DecidableEq, Repr

namespace Flag

/-- The long name, without its dashes. -/
def long : Flag → String
  | config => "config"
  | logLevel => "log-level"
  | format => "format"
  | directory => "dir"
  | noFileNameCheck => "no-filename-check"
  | help => "help"
  | version => "version"

/-- The letter, if the option has one. -/
def letter? : Flag → Option Char
  | config => some 'c'
  | format => some 'f'
  | directory => some 'd'
  | help => some 'h'
  | version => some 'V'
  | logLevel | noFileNameCheck => none

/-- Whether the option needs a value. -/
def takesValue : Flag → Bool
  | config | logLevel | format | directory => true
  | noFileNameCheck | help | version => false

/-- Whether a value is possible for the option. -/
def accepts (flag : Flag) (value : Text) : Bool :=
  flag ≠ format || (OutputFormat.ofName? value).isSome

end Flag

/-- Where on the command line an option stands: before a subcommand, or after one of the two. -/
inductive Level where
  | top
  | check
  | new
  deriving DecidableEq, Repr

namespace Level

/-- The options that are known at a level. -/
def flags : Level → List Flag
  | top => [.config, .logLevel, .help, .version]
  | check => [.config, .logLevel, .help, .format, .noFileNameCheck]
  | new => [.config, .logLevel, .help, .directory]

/-- The option of a long name. -/
def ofLong? (level : Level) (name : Text) : Option Flag :=
  level.flags.find? fun flag => flag.long.toList = name

/-- The option of a letter. -/
def ofLetter? (level : Level) (letter : Char) : Option Flag :=
  level.flags.find? fun flag => flag.letter? = some letter

/-- The level after a subcommand of this name. -/
def ofName? (name : Text) : Option Level :=
  if name = ['c', 'h', 'e', 'c', 'k'] then some check
  else if name = ['n', 'e', 'w'] then some new
  else none

end Level

/-- Why no command is run. -/
inductive Stop where
  | usageError
  | help
  | version
  deriving DecidableEq, Repr

/-- What was given at one level. -/
structure Given where
  options : List (Flag × Text)
  words : List Text
  deriving DecidableEq, Repr

namespace Given

/-- Nothing. -/
def none : Given :=
  ⟨[], []⟩

/-- The value of an option. -/
def value? (given : Given) (flag : Flag) : Option Text :=
  given.options.lookup flag

/-- Takes an option with its value. An option is given once only. -/
def add (given : Given) (flag : Flag) (value : Text) : Except Stop Given :=
  if (given.value? flag).isSome || !flag.accepts value then .error .usageError
  else .ok { given with options := given.options ++ [(flag, value)] }

/-- Takes an option that needs no value; two of them end the reading at once. -/
def addPlain (given : Given) (flag : Flag) : Except Stop Given :=
  match flag with
  | .help => .error .help
  | .version => .error .version
  | flag => given.add flag []

/-- Takes a word after a subcommand, which has room for one. -/
def addWord (given : Given) (word : Text) : Except Stop Given :=
  if given.words.isEmpty then .ok { given with words := [word] } else .error .usageError

/-- Takes words after a subcommand. -/
def addWords (given : Given) (words : List Text) : Except Stop Given :=
  words.foldlM addWord given

end Given

/-- Whether an argument is an option by its look. A single dash is a word. -/
def looksLikeOption (argument : Text) : Bool :=
  argument.head? = some '-' && argument ≠ ['-']

/-- Takes the letters after a dash. The first option that needs a value takes the rest of the
argument for it, or else waits for the next argument. -/
def readLetters (level : Level) (given : Given) : Text → Except Stop (Given × Option Flag)
  | [] => .ok (given, none)
  | letter :: rest =>
    match level.ofLetter? letter with
    | none => .error .usageError
    | some flag =>
      if flag.takesValue then
        if rest.isEmpty then .ok (given, some flag)
        else
          let value := if rest.head? = some '=' then rest.drop 1 else rest
          (given.add flag value).map (·, none)
      else
        match given.addPlain flag with
        | .ok given => readLetters level given rest
        | .error stop => .error stop

/-- Takes a long option, with a value after an equals sign or without one. -/
def readLong (level : Level) (given : Given) (argument : Text) :
    Except Stop (Given × Option Flag) :=
  let (name, value) := match Text.cutAt '=' argument with
    | some (name, value) => (name, some value)
    | none => (argument, none)
  match level.ofLong? name, value with
  | none, _ => .error .usageError
  | some flag, none =>
    if flag.takesValue then .ok (given, some flag) else (given.addPlain flag).map (·, none)
  | some flag, some value =>
    if flag.takesValue then (given.add flag value).map (·, none) else .error .usageError

/-- Takes an argument that looks like an option. An option may be left waiting for its value. -/
def readOption (level : Level) (given : Given) (argument : Text) :
    Except Stop (Given × Option Flag) :=
  if argument.take 2 = ['-', '-'] then readLong level given (argument.drop 2)
  else readLetters level given (argument.drop 1)

/-- Takes the arguments after a subcommand; `waiting` is an option that still needs its value. -/
def readCommandArguments (level : Level) (given : Given) (waiting : Option Flag) :
    List Text → Except Stop Given
  | [] => if waiting.isSome then .error .usageError else .ok given
  | argument :: rest =>
    match waiting with
    | some flag => do
      if looksLikeOption argument then .error .usageError
      readCommandArguments level (← given.add flag argument) none rest
    | none => do
      if argument = ['-', '-'] then given.addWords rest
      else if looksLikeOption argument then
        let (given, waiting) ← readOption level given argument
        readCommandArguments level given waiting rest
      else readCommandArguments level (← given.addWord argument) none rest

/-- What is run. -/
inductive Command where
  | check (request : CheckRequest)
  | new (request : NewRequest)
  deriving DecidableEq, Repr

/-- A command with the options that every command has. -/
structure Arguments where
  config : Option Text
  logLevel : Option Text
  command : Command
  deriving DecidableEq, Repr

namespace Arguments

/-- The arguments that what was given before and after a subcommand amounts to. -/
def ofGiven (before after : Given) (level : Level) : Except Stop Arguments :=
  match after.words, level with
  | [input], .check =>
    .ok
      { config := after.value? .config <|> before.value? .config
        logLevel := after.value? .logLevel <|> before.value? .logLevel
        command := .check
          { input := input
            format := (after.value? .format).bind OutputFormat.ofName?
            noFileNameCheck := (after.value? .noFileNameCheck).isSome } }
  | [name], .new =>
    .ok
      { config := after.value? .config <|> before.value? .config
        logLevel := after.value? .logLevel <|> before.value? .logLevel
        command := .new { name := name, directory := (after.value? .directory).getD ['.'] } }
  | _, _ => .error .usageError

/-- Takes the arguments after the word `help`, which may name a subcommand. -/
def readHelp : List Text → Stop
  | [] => .help
  | [name] => if (Level.ofName? name).isSome ∨ name = "help".toList then .help else .usageError
  | _ => .usageError

/-- Takes the arguments up to a subcommand, and then those after it. -/
def readFrom (given : Given) (waiting : Option Flag) : List Text → Except Stop Arguments
  | [] => .error .usageError
  | argument :: rest =>
    match waiting with
    | some flag => do
      if looksLikeOption argument then .error .usageError
      readFrom (← given.add flag argument) none rest
    | none => do
      if argument = ['-', '-'] then .error .usageError
      else if looksLikeOption argument then
        let (given, waiting) ← readOption .top given argument
        readFrom given waiting rest
      else
        match Level.ofName? argument with
        | some level => do
          let after ← readCommandArguments level .none none rest
          ofGiven given after level
        | none => .error (if argument = "help".toList then readHelp rest else .usageError)

/-- Reads a command line. -/
def read (arguments : List Text) : Except Stop Arguments :=
  readFrom .none none arguments

end Arguments

end SceneScript
