import ApiWorkshop.CommandLine.Command
import ApiWorkshop.CommandLine.Screen
import ApiWorkshop.Run.NewProject
import ApiWorkshop.Translation.Table

/-!
# Running a command line

A command line ends in an exit code, in what is shown, and in a changed file
tree.  Errors are shown with their wording; a breakdown is written to a log, and
the log is named.  A breakdown that cannot be logged is left to whoever runs the
command line.
-/

namespace ApiWorkshop

namespace CommandLine

/-- How a command line ended. -/
structure Outcome where
  exitCode : ExitCode := .success
  screen : Screen := {}
  /-- The error that kept a breakdown out of the log. -/
  unlogged : Option FileError := none
  deriving DecidableEq, Repr

/-- The name and version of the program. -/
def versionText : Text := "specforge 0.3.0"

def usageText : Text :=
  "Usage: specforge [OPTIONS] COMMAND [ARGS]...\n\nCommands: new, generate, check, openapi, translate"

/-! ## Definitions -/

/-- The source of the definitions and the heading of their API.  Without a
source the project in the working directory has both. -/
def sourceFor (around : Surroundings) (tree : FileTree) :
    Option String → Except RunError (LooseText × Heading)
  | some source => .ok (source, {})
  | none => do
      let root := around.workingPath
      let stored ← loadProject tree around.workingDirectory root
      let settings := stored.resolve around.environment none none
      .ok ((root.join (Path.ofText settings.apiDirectory)).text, settings.heading)

/-- The API of the definitions that a source names. -/
def loadApi (around : Surroundings) (tree : FileTree) (source : Option String) :
    Except RunError Api := do
  let (source, heading) ← sourceFor around tree source
  let sources ← Sources.load tree around.workingDirectory around.input source
  compileApi heading sources

/-! ## Commands -/

/-- Whether a new project is to become a repository, by the command line or else
by the settings of the user. -/
def gitWanted (around : Surroundings) (git : Option Bool) (tree : FileTree) :
    Except RunError Bool × FileTree :=
  match git with
  | some git => (.ok git, tree)
  | none =>
      let (user, tree) := loadUser around tree
      (user.map UserSettings.gitInit, tree)

def runNew (around : Surroundings) (display : Display) (name path : String) (git : Option Bool)
    (dryRun : Bool) (tree : FileTree) : Except RunError Outcome × FileTree :=
  match gitWanted around git tree with
  | (.error error, tree) => (.error error, tree)
  | (.ok git, tree) =>
      match newProject around { name, parent := Path.ofString path, git, dryRun } tree with
      | (.error error, tree) => (.error error, tree)
      | (.ok result, tree) =>
          let screen := Screen.report display result.report {}
          if result.dryRun then
            (.ok { screen := screen.say display "Dry run: nothing was written." }, tree)
          else
            let screen := match result.git with
              | .failed reason => screen.warn s!"Skipped git init: {reason}"
              | _ => screen
            let root := result.root.label
            let screen := screen.say display s!"Created project '{name}' in {root}"
            (.ok { screen := screen.say display s!"→ cd {root} && specforge generate" }, tree)

def runGenerate (around : Surroundings) (display : Display) (path : String)
    (apiDirectory : Option String) (dryRun : Bool) (tree : FileTree) :
    Except RunError Outcome × FileTree :=
  match generateProject around { root := Path.ofString path, dryRun, apiDirectory } tree with
  | (.error error, tree) => (.error error, tree)
  | (.ok result, tree) =>
      let screen := Screen.report display result.report {}
      let summary := Screen.summary result.report
      if result.dryRun then
        (.ok { screen := screen.say display s!"Dry run: {summary}" }, tree)
      else if result.report.failures.isEmpty then
        (.ok { screen := screen.say display s!"Generated: {summary}" }, tree)
      else
        (.ok { exitCode := .inputOutput, screen }, tree)

def runCheck (around : Surroundings) (display : Display) (source : Option String)
    (tree : FileTree) : Except RunError Outcome := do
  let api ← loadApi around tree source
  let rows := api.endpoints.map fun endpoint =>
    [endpoint.method.name, endpoint.path, OpenApi.operationId endpoint, endpoint.summary]
  let screen := Screen.table display ["Method", "Path", "Operation", "Summary"] rows {}
  let counts := s!"{api.endpoints.length} endpoint(s), {api.schemas.length} schema(s), " ++
    s!"{api.translations.length} translation table(s)"
  .ok { screen := screen.say display ("OK: " ++ counts) }

def openapiDraft (around : Surroundings) (source : Option String) (tree : FileTree) :
    Except RunError Draft := do
  let api ← loadApi around tree source
  match OpenApi.draft api with
  | .ok draft => .ok draft
  | .error fault => .error (.breakdown (.ofDocument fault))

def runOpenapi (around : Surroundings) (display : Display) (source : Option String)
    (output : String) (tree : FileTree) : Except RunError Outcome × FileTree :=
  match openapiDraft around source tree with
  | .error error => (.error error, tree)
  | .ok draft =>
      if output = "-" then
        (.ok { screen := Screen.print draft.text {} }, tree)
      else
        match tree.atomicWrite .none around.workingDirectory (Path.ofString output) draft with
        | (.error error, tree) =>
            (.error (if error.isFromSystem then .noOutput output error
              else .breakdown (.file error)), tree)
        | (.ok _, tree) => (.ok { screen := Screen.say display s!"Wrote {output}" {} }, tree)

/-- The time that a lookup refers to. -/
def referenceTime (around : Surroundings) : Option String → Except RunError DateTime
  | none => .ok around.now
  | some text =>
      match (Value.string text).timestamp? with
      | some time => .ok time
      | none => .error (.noTimestamp text)

/-- Looks up the label of a value. -/
def runTranslate (around : Surroundings) (model field value : String)
    (source asOf : Option String) (tree : FileTree) : Except RunError Outcome := do
  let time ← referenceTime around asOf
  let api ← loadApi around tree source
  let table ← compileTable api
  if Entries.hasKey (model, field) table then
    match table.lookup model field (.string value) time with
    | .ok (some label) => .ok { screen := Screen.print label.toList {} }
    | .ok none =>
        .ok { exitCode := .failure
              screen := Screen.warn
                s!"No translation of {quotedName value} for {model}.{field}" {} }
    | .error error => .error (.breakdown (.ofLookup error))
  else
    .error (.noTranslations model field)

def runCommand (around : Surroundings) (display : Display) (command : Command)
    (tree : FileTree) : Except RunError Outcome × FileTree :=
  match command with
  | .new name path git dryRun => runNew around display name path git dryRun tree
  | .generate path apiDirectory dryRun =>
      runGenerate around display path apiDirectory dryRun tree
  | .check source => (runCheck around display source tree, tree)
  | .openapi source output => runOpenapi around display source output tree
  | .translate model field value source asOf =>
      (runTranslate around model field value source asOf tree, tree)
  | .help _ => (.ok { screen := Screen.print usageText {} }, tree)

/-! ## Errors -/

/-- The name of the log of a breakdown. -/
def logPath (around : Surroundings) : Path :=
  around.directories.logs.join ⟨.relative, [LooseText.ofString ("crash-" ++ around.stamp ++ ".log")]⟩

/-- Writes the log of a breakdown; the directory of the data is made first. -/
def writeLog (around : Surroundings) (cause : Breakdown) (tree : FileTree) :
    Except FileError Unit × FileTree :=
  let here := around.workingDirectory
  match FileTree.makeDirectories here around.directories.data tree with
  | (.error error, tree) => (.error error, tree)
  | (.ok _, tree) =>
      match FileTree.makeDirectories here around.directories.logs tree with
      | (.error error, tree) => (.error error, tree)
      | (.ok _, tree) =>
          match tree.writeFile here (logPath around) (.text (cause.message ++ "\n")) with
          | .error error => (.error error, tree)
          | .ok tree => (.ok (), tree)

/-- Shows an error.  All problems of definitions are shown before their
summary; a breakdown is written to the log. -/
def fail (around : Surroundings) (error : RunError) (tree : FileTree) : Outcome × FileTree :=
  match error with
  | .breakdown cause =>
      match writeLog around cause tree with
      | (.error unlogged, tree) => ({ exitCode := error.exitCode, unlogged }, tree)
      | (.ok _, tree) =>
          let log := logPath around
          ({ exitCode := error.exitCode
             screen := Screen.complain s!"Unexpected error. Debug log: {log.label}" {} }, tree)
  | .problems found =>
      let screen := found.foldl (fun screen problem => Screen.complain problem.message screen) {}
      ({ exitCode := error.exitCode, screen := screen.complain error.message }, tree)
  | error =>
      ({ exitCode := error.exitCode, screen := Screen.complain error.message {} }, tree)

/-- How a command line ends that cannot be read. -/
def misuse (error : UsageError) : Outcome :=
  { exitCode := .usage
    screen := (Screen.note (String.ofList usageText) {}).complain error.message }

/-! ## Command lines -/

/-- The table format that the user has set; what cannot be used stands for the
default. -/
def userFormat : Except RunError UserSettings → Except RunError TableFormat
  | .ok settings => .ok (if settings.outputFormat = LooseText.ofString "json" then .json else .plain)
  | .error (.settings _) => .ok .plain
  | .error other => .error other

/-- How the shared options ask for results to be shown. -/
def displayFor (around : Surroundings) (shared : Words SharedOption) (tree : FileTree) :
    Except RunError Display × FileTree :=
  let quiet := shared.has .quiet
  if shared.has .json then
    (.ok { format := .json, quiet }, tree)
  else if shared.has .plain then
    (.ok { format := .plain, quiet }, tree)
  else
    let (user, tree) := loadUser around tree
    ((userFormat user).map fun format => { format, quiet }, tree)

/-- Why the directory that an option names cannot be handed to the system.  A
command that is asked for help does not look at it. -/
def pathFault? (words : Words CommandOption) : Option FileError :=
  if words.has .help then
    none
  else
    match (words.value? .path).map fun path => FileTree.handOver (Path.ofString path) with
    | some (.error error) => if error.isFromSystem then none else some error
    | _ => none

/-- Reads the words after the name of a command and runs it.  The directory that
an option names is looked at before the arguments are counted. -/
def runWords (around : Surroundings) (display : Display) (name : CommandName)
    (words : List String) (tree : FileTree) : Outcome × FileTree :=
  match Words.read name.forms words with
  | .error error => (misuse error, tree)
  | .ok words =>
      match pathFault? words, Command.ofWords name words with
      | some error, _ => fail around (.breakdown (.file error)) tree
      | none, .error error => (misuse error, tree)
      | none, .ok command =>
          match runCommand around display command tree with
          | (.ok outcome, tree) => (outcome, tree)
          | (.error error, tree) => fail around error tree

def run (around : Surroundings) (words : List String) (tree : FileTree) : Outcome × FileTree :=
  match Front.read words with
  | .error error => (misuse error, tree)
  | .ok .version => ({ screen := Screen.print versionText {} }, tree)
  | .ok .help => ({ screen := Screen.print usageText {} }, tree)
  | .ok (.run shared name rest) =>
      match displayFor around shared tree with
      | (.error error, tree) => fail around error tree
      | (.ok display, tree) => runWords around display name rest tree

end CommandLine

end ApiWorkshop
