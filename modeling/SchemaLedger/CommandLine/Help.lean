import SchemaLedger.CommandLine
import SchemaLedger.Text.Terminal

/-!
# Pages of help

A page starts with what a command is for and how it is called, and lists its options. Descriptions
stand beside the options, all in one column; a description of several lines stays in it. The names
of commands and options are bold.

What is printed is the visible part of a page, without orders to a terminal. The setting that the
page of the program shows may hold some as well.
-/

namespace SchemaLedger.CommandLine

/-- The name of the program. -/
def programName : String := "oxide-spanner"

/-- The name and the version. -/
def versionLine : String := programName ++ " 0.1.0"

/-- Names in bold and descriptions, the descriptions in one column. -/
def columns (rows : List (String × String)) : List String :=
  let width := rows.foldl (fun w r ↦ Nat.max w r.1.length) 0
  let indentation := "\n".pushn ' ' (width + 4)
  rows.map fun r ↦
    "  " ++ Text.Terminal.bold r.1 ++ "".pushn ' ' (width - r.1.length) ++ "  " ++
      indentation.intercalate (r.2.splitOn "\n")

/-- A page about a command. -/
def commandPage (about usage : String) (options : List (String × String)) : List String :=
  [about, "", "Usage: " ++ programName ++ " " ++ usage, "", "Options:"] ++
    columns (options ++ [("-h, --help", "Print help")])

/-- What each command is for. -/
def commands : List (String × String) :=
  [("transform", "Translate a JSON DDL AST into Spanner DDL"),
    ("parse-schema", "Parse a Spanner schema dump and print its tables as JSON"),
    ("sync", "Run a synchronization pass against an in-memory copy of a schema"),
    ("help", "Print this message or the help of the given subcommand(s)")]

/-- What a command is for. -/
def about (command : String) : String :=
  ((commands.find? (·.1 == command)).map (·.2)).getD ""

/-- The page of the program; `setting` is the value of `sideTableVariable`. -/
def programPage (setting : Option String) : List String :=
  ["Cloud Spanner DDL translation and extended schema synchronization", "",
    "Usage: " ++ programName ++ " [OPTIONS] <COMMAND>", "", "Commands:"] ++
  columns commands ++
  ["", "Options:"] ++
  columns
    [("    --schema-table <SCHEMA_TABLE>",
        "Extended schema side table [env: " ++ sideTableVariable ++ "=" ++ setting.getD "" ++
          "] [default: " ++ ({} : PassOptions).sideTable ++ "]"),
      ("-v, --verbose", "Enable verbose output"), ("-h, --help", "Print help"),
      ("-V, --version", "Print version")]

/-- The lines of a page for a terminal. -/
def Page.styled (setting : Option String) : Page → List String
  | program => programPage setting
  | transform => commandPage (about "transform") "transform --input <INPUT>"
      [("-i, --input <INPUT>", "JSON file holding one statement or an array of statements")]
  | parseSchema => commandPage (about "parse-schema") "parse-schema --input <INPUT>"
      [("-i, --input <INPUT>", "Schema dump (\x60;\x60-separated DDL)")]
  | sync => commandPage (about "sync") "sync [OPTIONS] --schema <SCHEMA> --entities <ENTITIES>"
      [("-s, --schema <SCHEMA>", "Schema dump to start from"),
        ("-e, --entities <ENTITIES>", "JSON file with entity metadata"),
        ("    --ddl <DDL>", "JSON DDL AST to apply during the pass"),
        ("    --bootstrap",
          "Tolerate facts naming missing columns (first pass after a deploy)"),
        ("    --dry-run", "Show DDL and fact changes without applying them")]
  | help => [about "help", "", "Usage: " ++ programName ++ " help [COMMAND]...", "", "Arguments:",
      "  [COMMAND]...  Print help for the subcommand(s)"]

/-- The lines of a page that are printed. -/
def Page.lines (setting : Option String) (p : Page) : List String :=
  (Text.Terminal.visible ("\n".intercalate (p.styled setting))).splitOn "\n"

end SchemaLedger.CommandLine
