import PathRouting.Command.Suggestion
import PathRouting.Text.Split
import PathRouting.Text.Quoted

/-!
# Options and arguments

A command has options and arguments. Options are given by long or short names; a short name may
be followed by more of them, or by the value of an option, in the same word. Behind a double
dash there are only arguments.
-/
namespace PathRouting.Command

structure OptionSpec where
  /-- The long names, each with two dashes, and the short ones, each with one. -/
  names : List String
  takesValue : Bool
deriving DecidableEq

structure CommandSpec where
  options : List OptionSpec
  /-- The names of the arguments, all of which must be given. -/
  arguments : List String
  mixed : Bool

inductive UsageError where
  | noSuchOption (name : String) (suggestions : List String)
  | needsValue (name : String)
  | takesNoValue (name : String)
  | missingArgument (name : String)
  | extraArguments (words : List String)
  | missingCommand
  | noSuchCommand (name : String)
  | notInteger (option word : String)
  | notPair (option word : String)
deriving DecidableEq

def UsageError.message : UsageError → String
  | .noSuchOption name suggestions =>
    "No such option: " ++ name ++
      (match suggestions with
        | [] => ""
        | [one] => " Did you mean " ++ one ++ "?"
        | several => " (Possible options: " ++ ", ".intercalate several ++ ")")
  | .needsValue name => "Option " ++ Text.quoted name ++ " requires an argument."
  | .takesNoValue name => "Option " ++ Text.quoted name ++ " does not take a value."
  | .missingArgument name => "Missing argument '" ++ name ++ "'."
  | .extraArguments [word] => "Got unexpected extra argument (" ++ word ++ ")"
  | .extraArguments words => "Got unexpected extra arguments (" ++ " ".intercalate words ++ ")"
  | .missingCommand => "Missing command."
  | .noSuchCommand name => "No such command " ++ Text.quoted name ++ "."
  | .notInteger option word =>
    "Invalid value for '" ++ option ++ "': " ++ Text.quoted word ++ " is not a valid integer."
  | .notPair option word =>
    "Invalid value for " ++ option ++ ": expected key=value, got " ++ Text.quoted word

structure Use where
  option : OptionSpec
  value : Option String

structure Split where
  uses : List Use
  words : List String

namespace Split

def nothing : Split := ⟨[], []⟩

def withUse (u : Use) (s : Split) : Split := { s with uses := u :: s.uses }

def withUses (us : List Use) (s : Split) : Split := { s with uses := us ++ s.uses }

def withWord (w : String) (s : Split) : Split := { s with words := w :: s.words }

end Split

/-- An option that waits for its value, by the name it was given under. -/
structure Waiting where
  option : OptionSpec
  name : String

namespace CommandSpec

def named? (c : CommandSpec) (name : String) : Option OptionSpec :=
  c.options.find? fun o => o.names.contains name

def isLong (name : String) : Bool := name.startsWith "--"

def longNames (c : CommandSpec) : List String := c.options.flatMap fun o => o.names.filter isLong

/-- What the letters behind a single dash say: options, and perhaps one that waits. -/
def readLetters (c : CommandSpec) : List Char → Except UsageError (List Use × Option Waiting)
  | [] => .ok ([], none)
  | x :: rest =>
    let name := String.ofList ['-', x]
    match c.named? name with
    | none => .error (.noSuchOption name [])
    | some o =>
      if o.takesValue then
        if rest.isEmpty then .ok ([], some ⟨o, name⟩)
        else .ok ([⟨o, some (String.ofList rest)⟩], none)
      else do
        let (uses, waiting) ← readLetters c rest
        return (⟨o, none⟩ :: uses, waiting)

/-- What a word with two dashes says: an option, or one that waits. -/
def readLong (c : CommandSpec) (word : String) : Except UsageError (List Use × Option Waiting) :=
  let (name, value) := match Text.splitFirst? '=' word.toList with
    | some (name, value) => (String.ofList name, some (String.ofList value))
    | none => (word, none)
  match c.named? name, value with
  | none, _ => .error (.noSuchOption name (suggestions name c.longNames))
  | some o, some v =>
    if o.takesValue then .ok ([⟨o, some v⟩], none) else .error (.takesNoValue name)
  | some o, none =>
    if o.takesValue then .ok ([], some ⟨o, name⟩) else .ok ([⟨o, none⟩], none)

def readOption (c : CommandSpec) (word : String) : Except UsageError (List Use × Option Waiting) :=
  if isLong word then c.readLong word else c.readLetters (word.toList.drop 1)

def isOption (word : String) : Bool := word.startsWith "-" && word != "-"

/-- Words as uses of options and other words. An option may wait for the first of them. -/
def split (c : CommandSpec) : Option Waiting → List String → Except UsageError Split
  | none, [] => .ok .nothing
  | some w, [] => .error (.needsValue w.name)
  | some w, word :: rest => (c.split none rest).map (.withUse ⟨w.option, some word⟩)
  | none, word :: rest =>
    if word == "--" then .ok ⟨[], rest⟩
    else if isOption word then do
      let (uses, waiting) ← c.readOption word
      let more ← c.split waiting rest
      return more.withUses uses
    else if c.mixed then (c.split none rest).map (.withWord word)
    else .ok ⟨[], word :: rest⟩

end CommandSpec

def Split.valuesOf (s : Split) (o : OptionSpec) : List String :=
  s.uses.filterMap fun u => if u.option == o then u.value else none

def Split.lastValueOf (s : Split) (o : OptionSpec) : Option String := (s.valuesOf o).getLast?

def Split.has (s : Split) (o : OptionSpec) : Bool := s.uses.any fun u => u.option == o

end PathRouting.Command
