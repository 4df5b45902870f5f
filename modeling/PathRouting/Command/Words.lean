import PathRouting.Command.Line
import PathRouting.Number.Reader
import PathRouting.Text.Word

/-!
# The words of a command line

Options may stand in front of a command and behind it. What the words ask for is read from left to
right, and the first thing that is wrong counts.
-/
namespace PathRouting.Command

def readIndent (s : Split) : Except UsageError Int :=
  match s.lastValueOf indentOption with
  | none => .ok 2
  | some word =>
    match Number.integer? word.toList with
    | some n => .ok n
    | none => .error (.notInteger "--indent" word)

def readAction (name : Name) (s : Split) : Except UsageError Action := do
  let indent ← readIndent s
  let arg (n : Nat) : Except UsageError String :=
    match s.words[n]? with
    | some word => .ok word
    | none => .error (.missingArgument (name.spec.arguments.getD n ""))
  let action ← match name with
    | .routes => pure Action.routes
    | .match_ => pure (.match_ (← arg 0) (← arg 1) (s.has jsonOption))
    | .build => pure (.build (← arg 0) (s.valuesOf paramOption))
    | .bundle => pure (.bundle indent)
    | .inspect =>
      pure (.inspect (← arg 0) (s.valuesOf conditionOption) (s.valuesOf defaultOption))
  match s.words.drop name.spec.arguments.length with
  | [] => return action
  | extra => throw (.extraArguments extra)

def readCommand (globals : Globals) (name : Name) (words : List String) : Line :=
  match name.spec.split none words with
  | .error e => .wrong (some name) e
  | .ok s =>
    if s.has helpOption then .help (some name)
    else
      match readAction name s with
      | .error e => .wrong (some name) e
      | .ok action => .run globals name action

/-- Which of the options that need no command comes first. -/
def firstNotice? (s : Split) : Option Line :=
  s.uses.findSome? fun u =>
    if u.option == versionOption then some .version
    else if u.option == helpOption then some (.help none)
    else none

def looksLikeOption (word : String) : Bool :=
  match word.toList.head? with
  | none => false
  | some c => !Text.isAlphanumeric c

def readWords (words : List String) : Line :=
  if words.isEmpty then .help none
  else
    match programSpec.split none words with
    | .error e => .wrong none e
    | .ok s =>
      match firstNotice? s with
      | some line => line
      | none =>
        let globals : Globals :=
          ⟨s.valuesOf configOption, s.lastValueOf envFileOption, s.has verboseOption,
            s.has quietOption⟩
        match s.words with
        | [] => .wrong none .missingCommand
        | word :: rest =>
          match Name.ofWord? word with
          | some name => readCommand globals name rest
          | none =>
            if looksLikeOption word then .help none else .wrong none (.noSuchCommand word)

instance : LineReader := ⟨readWords⟩

end PathRouting.Command
