/-!
# Options and arguments

A list of words is read into options and arguments.  A long option begins with
two hyphens and may carry its value after an equals sign; short options of one
letter may share a hyphen, and the last of them may carry its value in the rest
of the word.  An option without its value in the same word takes the next word,
whatever it looks like.  After a word of two hyphens everything is an argument.
-/

namespace ApiWorkshop

/-- What is wrong with the words of a command line. -/
inductive UsageError where
  | unknownOption (option : String)
  | missingValue
  | unexpectedValue (option : String)
  | missingArgument
  | unexpectedArgument
  | missingCommand
  | unknownCommand (name : String)
  deriving DecidableEq, Repr

def UsageError.message : UsageError → String
  | unknownOption option => s!"No such option: {option}"
  | missingValue => "The last option requires a value."
  | unexpectedValue option => s!"Option '{option}' does not take a value."
  | missingArgument => "An argument is missing."
  | unexpectedArgument => "Got an unexpected argument."
  | missingCommand => "Missing command."
  | unknownCommand name => s!"No such command '{name}'."

/-- An option with the long names and the letters that stand for it. -/
structure OptionForm (κ : Type) where
  key : κ
  names : List String
  letters : List Char := []
  takesValue : Bool := false

/-- Options with their values, in order, and arguments. -/
structure Words (κ : Type) where
  options : List (κ × String) := []
  arguments : List String := []
  deriving Repr

namespace Words

variable {κ : Type}

def withOptions (found : List (κ × String)) (words : Words κ) : Words κ :=
  { words with options := found ++ words.options }

def withArgument (argument : String) (words : Words κ) : Words κ :=
  { words with arguments := argument :: words.arguments }

/-- The value of an option, the last one if it is given again. -/
def value? [DecidableEq κ] (words : Words κ) (key : κ) : Option String :=
  (words.options.reverse.find? fun option => option.1 = key).map Prod.snd

def has [DecidableEq κ] (words : Words κ) (key : κ) : Bool :=
  (words.value? key).isSome

/-- The option in a word that follows two hyphens, with the value after an
equals sign. -/
def splitAtEquals (word : List Char) : String × Option String :=
  match word.dropWhile (· != '=') with
  | [] => (String.ofList word, none)
  | _ :: value => (String.ofList (word.takeWhile (· != '=')), some (String.ofList value))

/-- Reads the letters of a word after its hyphen.  The last option may still
need a value. -/
def letters (forms : List (OptionForm κ)) :
    List Char → Except UsageError (List (κ × String) × Option κ)
  | [] => .ok ([], none)
  | letter :: rest =>
      match forms.find? fun form => form.letters.contains letter with
      | none => .error (.unknownOption (String.ofList ['-', letter]))
      | some form =>
          if form.takesValue then
            match rest with
            | [] => .ok ([], some form.key)
            | value => .ok ([(form.key, String.ofList value)], none)
          else do
            let (found, pending) ← letters forms rest
            .ok ((form.key, "") :: found, pending)

/-- Reads a word that begins with a hyphen. -/
def optionWord (forms : List (OptionForm κ)) (word : String) :
    Except UsageError (List (κ × String) × Option κ) :=
  let (name, value) := splitAtEquals word.toList
  match forms.find? fun form => form.names.contains name with
  | some form =>
      match form.takesValue, value with
      | true, some value => .ok ([(form.key, value)], none)
      | true, none => .ok ([], some form.key)
      | false, none => .ok ([(form.key, "")], none)
      | false, some _ => .error (.unexpectedValue name)
  | none =>
      match word.toList with
      | '-' :: '-' :: _ => .error (.unknownOption name)
      | _ :: inner => letters forms inner
      | [] => .ok ([], none)

/-- Whether a word is read as options: a hyphen with something after it. -/
def isOptionWord (word : String) : Bool :=
  match word.toList with
  | '-' :: _ :: _ => true
  | _ => false

/-- Reads words; an option may be waiting for its value.  Unless options may
stand behind arguments, the first argument ends the options. -/
def readWaiting (forms : List (OptionForm κ)) (mixed : Bool) :
    Option κ → List String → Except UsageError (Words κ)
  | some _, [] => .error .missingValue
  | some key, value :: rest => do
      let words ← readWaiting forms mixed none rest
      .ok (words.withOptions [(key, value)])
  | none, [] => .ok {}
  | none, word :: rest =>
      if word = "--" then
        .ok { arguments := rest }
      else if isOptionWord word then do
        let (found, pending) ← optionWord forms word
        let words ← readWaiting forms mixed pending rest
        .ok (words.withOptions found)
      else if mixed then do
        let words ← readWaiting forms mixed none rest
        .ok (words.withArgument word)
      else
        .ok { arguments := word :: rest }

/-- Reads words that may mix options and arguments. -/
def read (forms : List (OptionForm κ)) (words : List String) : Except UsageError (Words κ) :=
  readWaiting forms true none words

/-- Reads the options in front of the first argument. -/
def readFront (forms : List (OptionForm κ)) (words : List String) :
    Except UsageError (Words κ) :=
  readWaiting forms false none words

end Words

end ApiWorkshop
