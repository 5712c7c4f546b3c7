import ApiWorkshop.CommandLine.Options

/-!
# Commands

A command line has shared options, the name of a command, and the options and
arguments of that command.
-/

namespace ApiWorkshop

/-- The options that all commands share. -/
inductive SharedOption where
  | version
  | json
  | plain
  | noColor
  | quiet
  | verbose
  | help
  deriving DecidableEq, Repr

def SharedOption.forms : List (OptionForm SharedOption) :=
  [{ key := version, names := ["--version"] },
    { key := json, names := ["--json"] },
    { key := plain, names := ["--plain"] },
    { key := noColor, names := ["--no-color"] },
    { key := quiet, names := ["--quiet"], letters := ['q'] },
    { key := verbose, names := ["--verbose"], letters := ['v'] },
    { key := help, names := ["--help"] }]

/-- The options of the commands. -/
inductive CommandOption where
  | path
  | git
  | noGit
  | dryRun
  | apiDirectory
  | output
  | asOf
  | help
  deriving DecidableEq, Repr

namespace CommandOption

/-- The form of the option that asks for help. -/
def helpForm : OptionForm CommandOption :=
  { key := help, names := ["--help"] }

/-- The form of the option that forbids writing. -/
def dryRunForm : OptionForm CommandOption :=
  { key := dryRun, names := ["--dry-run"], letters := ['n'] }

/-- The form of the option that names a directory. -/
def pathForm : OptionForm CommandOption :=
  { key := path, names := ["--path"], takesValue := true }

end CommandOption

/-- The names of the commands. -/
inductive CommandName where
  | new
  | generate
  | check
  | openapi
  | translate
  deriving DecidableEq, Repr

namespace CommandName

def all : List CommandName := [new, generate, check, openapi, translate]

def word : CommandName → String
  | new => "new"
  | generate => "generate"
  | check => "check"
  | openapi => "openapi"
  | translate => "translate"

def ofWord? (word : String) : Option CommandName :=
  all.find? fun name => name.word = word

/-- The forms of the options of a command. -/
def forms : CommandName → List (OptionForm CommandOption)
  | new =>
      [CommandOption.pathForm, { key := .git, names := ["--git"] },
        { key := .noGit, names := ["--no-git"] }, CommandOption.dryRunForm,
        CommandOption.helpForm]
  | generate =>
      [CommandOption.pathForm, { key := .apiDirectory, names := ["--api-dir"], takesValue := true },
        CommandOption.dryRunForm, CommandOption.helpForm]
  | check => [CommandOption.helpForm]
  | openapi =>
      [{ key := .output, names := ["--output"], letters := ['o'], takesValue := true },
        CommandOption.helpForm]
  | translate =>
      [{ key := .asOf, names := ["--as-of"], takesValue := true }, CommandOption.helpForm]

end CommandName

/-- A command with its options and arguments. -/
inductive Command where
  | new (name path : String) (git : Option Bool) (dryRun : Bool)
  | generate (path : String) (apiDirectory : Option String) (dryRun : Bool)
  | check (source : Option String)
  | openapi (source : Option String) (output : String)
  | translate (model field value : String) (source asOf : Option String)
  | help (name : CommandName)
  deriving DecidableEq, Repr

namespace Command

/-- The answer of the options for making a repository; the last one holds. -/
def gitAnswer (words : Words CommandOption) : Option Bool :=
  words.options.reverse.findSome? fun option =>
    match option.1 with
    | .git => some true
    | .noGit => some false
    | _ => none

/-- The error for a number of arguments that is too small or too large. -/
def wrongArguments {α : Type} (least : Nat) (arguments : List String) : Except UsageError α :=
  if arguments.length < least then .error .missingArgument else .error .unexpectedArgument

/-- Gives the words of a command their meaning. -/
def ofWords (name : CommandName) (words : Words CommandOption) : Except UsageError Command :=
  let dryRun := words.has .dryRun
  let path := (words.value? .path).getD "."
  if words.has .help then
    .ok (.help name)
  else
    match name, words.arguments with
    | .new, [project] => .ok (.new project path (gitAnswer words) dryRun)
    | .new, arguments => wrongArguments 1 arguments
    | .generate, [] => .ok (.generate path (words.value? .apiDirectory) dryRun)
    | .generate, arguments => wrongArguments 0 arguments
    | .check, [] => .ok (.check none)
    | .check, [source] => .ok (.check (some source))
    | .check, arguments => wrongArguments 0 arguments
    | .openapi, [] => .ok (.openapi none ((words.value? .output).getD "-"))
    | .openapi, [source] => .ok (.openapi (some source) ((words.value? .output).getD "-"))
    | .openapi, arguments => wrongArguments 0 arguments
    | .translate, [model, field, value] =>
        .ok (.translate model field value none (words.value? .asOf))
    | .translate, [model, field, value, source] =>
        .ok (.translate model field value (some source) (words.value? .asOf))
    | .translate, arguments => wrongArguments 3 arguments

/-- Reads the words after the name of a command. -/
def read (name : CommandName) (words : List String) : Except UsageError Command := do
  let words ← Words.read name.forms words
  ofWords name words

end Command

/-- What the front of a command line asks for. -/
inductive Front where
  | version
  | help
  | run (shared : Words SharedOption) (name : CommandName) (rest : List String)

namespace Front

/-- Reads the shared options and the name of the command. -/
def read (words : List String) : Except UsageError Front := do
  let shared ← Words.readFront SharedOption.forms words
  if words.isEmpty then
    .ok .help
  else
    match shared.options.find? fun option => option.1 = .version || option.1 = .help with
    | some (.version, _) => .ok .version
    | some _ => .ok .help
    | none =>
        match shared.arguments with
        | [] => .error .missingCommand
        | word :: rest =>
            match CommandName.ofWord? word with
            | some name => .ok (.run shared name rest)
            | none => .error (.unknownCommand word)

end Front

end ApiWorkshop
