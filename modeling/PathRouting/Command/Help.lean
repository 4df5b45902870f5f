import PathRouting.Command.Line

/-!
# Help texts
-/
namespace PathRouting.Command

def usageLine : Option Name → String
  | none => "Usage: " ++ programName ++ " [OPTIONS] COMMAND [ARGS]..."
  | some name =>
    "Usage: " ++ programName ++ " " ++
      " ".intercalate ([name.word, "[OPTIONS]"] ++ name.spec.arguments)

def optionLines : Option Name → List (String × String)
  | none => [
    ("--version", "Show the version and exit."),
    ("-c, --config PATH", "Route file (YAML or JSON), may be repeated"),
    ("--env-file PATH", "Load ROUTEFORGE_* settings from a .env file"),
    ("-v, --verbose", "Verbose output"),
    ("-q, --quiet", "Minimal output"),
    ("--help", "Show this message and exit.")]
  | some .routes => [("--help", "Show this message and exit.")]
  | some .match_ => [
    ("--json-output", "Print the match as JSON"),
    ("--help", "Show this message and exit.")]
  | some .build => [
    ("-p, --param TEXT", "Parameter as key=value, may be repeated"),
    ("--help", "Show this message and exit.")]
  | some .bundle => [
    ("--indent INTEGER", "JSON indentation  [default: 2]"),
    ("--help", "Show this message and exit.")]
  | some .inspect => [
    ("-C, --condition TEXT", "Condition as name=regex"),
    ("-d, --default TEXT", "Default as name=value"),
    ("--help", "Show this message and exit.")]

def twoColumns (rows : List (String × String)) : List String :=
  let width := rows.foldl (fun w (left, _) => max w left.length) 0
  rows.map fun (left, right) =>
    "  " ++ left ++ String.ofList (List.replicate (width - left.length + 2) ' ') ++ right

def helpText (command : Option Name) : String :=
  let summary := match command with
    | none => "Compile, match and build route patterns."
    | some name => name.summary
  let commands := match command with
    | none =>
      ["", "Commands:"] ++ twoColumns (Name.all.map fun name => (name.word, name.summary))
    | some _ => []
  String.join (([usageLine command, "", "  " ++ summary, "", "Options:"] ++
    twoColumns (optionLines command) ++ commands).map (· ++ "\n"))

def usageText (command : Option Name) (e : UsageError) : String :=
  let words := programName :: (command.map Name.word).toList
  usageLine command ++ "\nTry '" ++ " ".intercalate (words ++ ["--help"]) ++
    "' for help.\n\nError: " ++ e.message ++ "\n"

end PathRouting.Command
