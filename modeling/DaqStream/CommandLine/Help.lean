import DaqStream.CommandLine.Invocation

/-!
# Help texts

What a user reads who asks for help: what the program or a command does, how it is used, and
its options, with what they are for beside or below them.
-/

namespace DaqStream.CommandLine

/-- The name of the program. -/
def programName : String := "ringfilter"

/-- What the program does. -/
def programAbout : String := "Filter, sample and decompose DAQ ring-item streams"

/-- `text`, filled up with blanks. -/
def padded (width : Nat) (text : String) : String :=
  text ++ String.ofList (List.replicate (width - text.length) ' ')

/-- The greatest width of a line. -/
def lineWidth : Nat := 100

/-- Whether a text does not fit beside a first column of a given width. A narrow column
    leaves room for every text. -/
def crowded (width : Nat) (text : String) : Bool :=
  let taken := width + 12
  2 * lineWidth < 5 * taken && taken ≤ lineWidth && lineWidth - taken < text.length

/-- Lines of two aligned columns. If a text in the second column does not fit, every text has
    a line of its own. -/
def columns (rows : List (String × String)) : String :=
  let width := (rows.map fun row => row.1.length).foldl max 0
  if rows.any fun row => crowded width row.2 then
    String.join (rows.map fun row => "  " ++ row.1 ++ "\n          " ++ row.2 ++ "\n")
  else
    String.join (rows.map fun row => "  " ++ padded width row.1 ++ "  " ++ row.2 ++ "\n")

/-- How an option is written, and what it is for. -/
def OptionSpec.row (o : OptionSpec) : String × String :=
  let value := match o.valueName with
    | some name => " <" ++ name ++ ">"
    | none => ""
  ("    --" ++ o.name ++ value, o.about)

/-- The options, and the one that asks for help. -/
def optionLines (specs : List OptionSpec) : String :=
  "Options:\n" ++ columns (specs.map OptionSpec.row ++ [("-h, --help", "Print help")])

/-- What the command `help` does. -/
def helpAbout : String := "Print this message or the help of the given subcommand(s)"

/-- The help text on a topic. -/
def helpText : HelpTopic → String
  | .program =>
    let commands := CommandName.all.map fun command => (command.name, command.about)
    programAbout ++ "\n\nUsage: " ++ programName ++ " [OPTIONS] <COMMAND>\n\nCommands:\n" ++
      columns (commands ++ [("help", helpAbout)]) ++ "\n" ++ optionLines [configOption]
  | .command name =>
    name.about ++ "\n\nUsage: " ++ programName ++ " " ++ name.name ++ " [OPTIONS]\n\n" ++
      optionLines name.options
  | .help =>
    helpAbout ++ "\n\nUsage: " ++ programName ++ " help [COMMAND]...\n\nArguments:\n" ++
      columns [("[COMMAND]...", "Print help for the subcommand(s)")]

end DaqStream.CommandLine
