import NativeUi.Cli.Arguments
import NativeUi.Text.Lines
import NativeUi.Text.Visible

/-!
# Help texts
-/
namespace NativeUi.Cli

def versionText : String := Text.ofLines ["forge 0.1.0"]

def CommandName.summary : CommandName → String
  | .init => "Create forge.config.json"
  | .build => "Build project (web, android, ios, macos; web, android and ios when omitted)"
  | .inspect => "Inspect semantic bundle (ui, semantic)"

def CommandName.argumentSummary? : CommandName → Option String
  | .init => none
  | .build => some "Target to build"
  | .inspect => some "What to print"

def helpSummary : String := "Print this message or the help of the given subcommand(s)"

def bold (s : String) : String := "\x1b[1m" ++ s ++ "\x1b[0m"

def heading (s : String) : String := "\x1b[1m\x1b[4m" ++ s ++ "\x1b[0m"

def optionColumn : Nat := 19

/-- A text of several lines, all of them behind the first indented to a column. -/
def hang (column : Nat) (s : String) : String :=
  ("\n" ++ Text.spaces column).intercalate (s.splitOn "\n")

def usageLine (command arguments : String) : String :=
  heading "Usage:" ++ " " ++ bold command ++ " " ++ arguments

def optionLines (environment : Option String) : List String := [
  heading "Options:",
  "  " ++ bold "-C" ++ ", " ++ bold "--dir" ++
    " <DIR>  Project working directory [env: FORGE_DIR=" ++
    hang optionColumn (environment.getD "") ++ "] [default: .]",
  "  " ++ bold "-h" ++ ", " ++ bold "--help" ++ "       Print help"]

def programHelp (environment : Option String) : List String :=
  ["Transpile Forge UI projects to native platforms",
    "",
    usageLine "forge" "[OPTIONS] <COMMAND>",
    "",
    heading "Commands:",
    "  " ++ bold "init" ++ "     " ++ CommandName.init.summary,
    "  " ++ bold "build" ++ "    " ++ CommandName.build.summary,
    "  " ++ bold "inspect" ++ "  " ++ CommandName.inspect.summary,
    "  " ++ bold "help" ++ "     " ++ helpSummary,
    ""] ++
  optionLines environment ++
  ["  " ++ bold "-V" ++ ", " ++ bold "--version" ++ "    Print version"]

def commandHelp (environment : Option String) (c : CommandName) : List String :=
  match c.argumentSummary? with
  | none =>
    [c.summary, "", usageLine ("forge " ++ c.name) "[OPTIONS]", ""] ++ optionLines environment
  | some summary =>
    [c.summary, "", usageLine ("forge " ++ c.name) "[OPTIONS] [TARGET]", "",
      heading "Arguments:", "  [TARGET]  " ++ summary, ""] ++ optionLines environment

def Topic.lines (environment : Option String) : Topic → List String
  | .program => programHelp environment
  | .command c => commandHelp environment c
  | .help =>
    [helpSummary, "", usageLine "forge help" "[COMMAND]...", "", heading "Arguments:",
      "  [COMMAND]...  Print help for the subcommand(s)"]

/-- Help is not read from a terminal, so that what steers one is left out. -/
def Topic.text (environment : Option String) (t : Topic) : String :=
  Text.visible (Text.ofLines (t.lines environment))

end NativeUi.Cli
