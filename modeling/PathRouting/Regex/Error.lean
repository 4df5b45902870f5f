import PathRouting.Text.Quoted
import PathRouting.Value.Text

/-!
# What can be wrong with a regular expression
-/
namespace PathRouting.Regex

inductive Mistake where
  | danglingEscape
  | badEscape (escape : String)
  | incompleteEscape (escape : String)
  | octalTooLarge (escape : String)
  | missingBrace
  | undefinedCharacter (name : String)
  | missingName (kind : String)
  | unterminatedName (terminator : String)
  | badName (name : String)
  | unknownGroup (name : String)
  | redefinedGroup (name : String) (number previous : Nat)
  | badGroupNumber
  | invalidReference (number : Nat)
  | openReference
  | lookBehindReference
  | unterminatedSet
  | badRange (range : String)
  | leastAboveMost
  | nothingToRepeat
  | multipleRepeat
  | unexpectedEnd
  | unknownExtension (extension : String)
  | unterminatedComment
  | unterminatedGroup
  | unbalanced
  | tooManyBranches
  | misplacedFlags
  | localeFlag
  | alphabetFlags
  | alphabetFlagOff
  | globalFlagOn
  | globalFlagOff
  | flagOnAndOff
  | unknownFlag
  | missingFlag
  | missingColon
  | missingFlagEnd
deriving DecidableEq

def Mistake.message : Mistake → String
  | .danglingEscape => "bad escape (end of pattern)"
  | .badEscape escape => "bad escape " ++ escape
  | .incompleteEscape escape => "incomplete escape " ++ escape
  | .octalTooLarge escape => "octal escape value " ++ escape ++ " outside of range 0-0o377"
  | .missingBrace => "missing \x7b"
  | .undefinedCharacter name => "undefined character name " ++ Text.quoted name
  | .missingName kind => "missing " ++ kind
  | .unterminatedName terminator => "missing " ++ terminator ++ ", unterminated name"
  | .badName name => "bad character in group name " ++ Text.quoted name
  | .unknownGroup name => "unknown group name " ++ Text.quoted name
  | .redefinedGroup name number previous =>
    "redefinition of group name " ++ Text.quoted name ++ " as group " ++ Value.ofInt number ++
      "; was group " ++ Value.ofInt previous
  | .badGroupNumber => "bad group number"
  | .invalidReference number => "invalid group reference " ++ Value.ofInt number
  | .openReference => "cannot refer to an open group"
  | .lookBehindReference => "cannot refer to group defined in the same lookbehind subpattern"
  | .unterminatedSet => "unterminated character set"
  | .badRange range => "bad character range " ++ range
  | .leastAboveMost => "min repeat greater than max repeat"
  | .nothingToRepeat => "nothing to repeat"
  | .multipleRepeat => "multiple repeat"
  | .unexpectedEnd => "unexpected end of pattern"
  | .unknownExtension extension => "unknown extension ?" ++ extension
  | .unterminatedComment => "missing ), unterminated comment"
  | .unterminatedGroup => "missing ), unterminated subpattern"
  | .unbalanced => "unbalanced parenthesis"
  | .tooManyBranches => "conditional backref with more than two branches"
  | .misplacedFlags => "global flags not at the start of the expression"
  | .localeFlag => "bad inline flags: cannot use 'L' flag with a str pattern"
  | .alphabetFlags => "bad inline flags: flags 'a', 'u' and 'L' are incompatible"
  | .alphabetFlagOff => "bad inline flags: cannot turn off flags 'a', 'u' and 'L'"
  | .globalFlagOn => "bad inline flags: cannot turn on global flag"
  | .globalFlagOff => "bad inline flags: cannot turn off global flag"
  | .flagOnAndOff => "bad inline flags: flag turned on and off"
  | .unknownFlag => "unknown flag"
  | .missingFlag => "missing flag"
  | .missingColon => "missing :"
  | .missingFlagEnd => "missing -, : or )"

inductive Error where
  | mistake (kind : Mistake) (position : Nat)
  | lookBehindVaries
  | lookBehindTooLong
  /-- The template flag forbids repetitions, here one whose kind has the given name. -/
  | templateRepetition (kind : String)
  | repetitionTooLarge
  | alphabetsClash
deriving DecidableEq

/-- The line and the column, both counted from one, of a position in a text. -/
def lineAndColumn (source : List Char) (position : Nat) : Nat × Nat :=
  let before := source.take position
  (before.count '\n' + 1, (before.reverse.takeWhile (· != '\n')).length + 1)

/-- The full message of an error in a text. Line and column are given if the text has more
than one line. -/
def Error.message (source : List Char) : Error → String
  | .mistake kind position =>
    let place := kind.message ++ " at position " ++ Value.ofInt position
    if source.contains '\n' then
      let (line, column) := lineAndColumn source position
      place ++ " (line " ++ Value.ofInt line ++ ", column " ++ Value.ofInt column ++ ")"
    else place
  | .lookBehindVaries => "look-behind requires fixed-width pattern"
  | .lookBehindTooLong => "looks too much behind"
  | .templateRepetition kind => "internal: unsupported template operator " ++ kind
  | .repetitionTooLarge => "the repetition number is too large"
  | .alphabetsClash => "ASCII and UNICODE flags are incompatible"

/-- How the reading of an expression fails. A mistake lies `back` characters before what was
`remaining` to be read. -/
inductive Failure where
  | mistake (kind : Mistake) (remaining back : Nat)
  | repetitionTooLarge (remaining : Nat)
  | alphabetsClash (remaining : Nat)
deriving DecidableEq

/-- What was left to read when the reading failed. -/
def Failure.remaining : Failure → Nat
  | .mistake _ remaining _ => remaining
  | .repetitionTooLarge remaining => remaining
  | .alphabetsClash remaining => remaining

def Failure.toError (length : Nat) : Failure → Error
  | .mistake kind remaining back => .mistake kind (length - remaining - back)
  | .repetitionTooLarge _ => .repetitionTooLarge
  | .alphabetsClash _ => .alphabetsClash

theorem bind_eq_ok {ε α β : Type} {x : Except ε α} {next : α → Except ε β} {y : β} :
    x >>= next = .ok y ↔ ∃ a, x = .ok a ∧ next a = .ok y := by
  cases x with
  | error e => exact ⟨nofun, fun ⟨_, h, _⟩ => nomatch h⟩
  | ok a =>
    constructor
    · intro h
      exact ⟨a, rfl, h⟩
    · rintro ⟨_, h, hy⟩
      obtain rfl := Except.ok.inj h
      exact hy

theorem bind_eq_error {ε α β : Type} {x : Except ε α} {next : α → Except ε β} {e : ε} :
    x >>= next = .error e ↔ x = .error e ∨ ∃ a, x = .ok a ∧ next a = .error e := by
  cases x with
  | error e' =>
    constructor
    · intro h
      exact .inl (congrArg Except.error (Except.error.inj h))
    · rintro (h | ⟨_, h, _⟩)
      · exact congrArg Except.error (Except.error.inj h)
      · cases h
  | ok a =>
    constructor
    · intro h
      exact .inr ⟨a, rfl, h⟩
    · rintro (h | ⟨_, h, he⟩)
      · cases h
      · obtain rfl := Except.ok.inj h
        exact he

end PathRouting.Regex
