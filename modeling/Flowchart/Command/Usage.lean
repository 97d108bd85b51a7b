import Flowchart.Text.Quoted

/-!
# Commands and their options

The commands, the options that each one knows, and the texts that tell a user
about them.
-/

namespace Flowchart.Command

inductive Name where
  | build
  | check
  | serve
  deriving DecidableEq, Repr

namespace Name

def text : Name → String
  | build => "build"
  | check => "check"
  | serve => "serve"

def all : List Name := [build, check, serve]

def ofText? (s : String) : Option Name := all.find? (·.text == s)

end Name

/-- What an option sets. -/
inductive Setting where
  | help
  | output
  | config
  | noFence
  | port
  | host
  deriving DecidableEq, Repr

/-- An option: the names it goes by, and whether a value belongs to it. -/
structure Switch where
  setting : Setting
  names : List String
  takesValue : Bool
  deriving DecidableEq, Repr

/-- All names of an option. -/
def Switch.title (s : Switch) : String := "/".intercalate s.names

def helpSwitch : Switch := ⟨.help, ["-h", "--help"], false⟩

/-- The options before a command. -/
def programSwitches : List Switch := [helpSwitch]

def Name.switches : Name → List Switch
  | build =>
    [helpSwitch, ⟨.output, ["-o", "--output"], true⟩, ⟨.config, ["--config"], true⟩,
      ⟨.noFence, ["--no-fence"], false⟩]
  | check => [helpSwitch]
  | serve => [helpSwitch, ⟨.port, ["--port"], true⟩, ⟨.host, ["--host"], true⟩]

/-! ## Faults -/

/-- Why arguments cannot be read. -/
inductive UsageFault where
  | ambiguous (argument : String) (names : List String)
  | valueExpected (s : Switch)
  | valueIgnored (s : Switch) (value : String)
  | notWhole (s : Switch) (value : String)
  | noSource
  | unknownCommand (name : String)
  | unrecognized (arguments : List String)
  deriving DecidableEq, Repr

def UsageFault.message : UsageFault → String
  | ambiguous argument names =>
    s!"ambiguous option: {argument} could match " ++ ", ".intercalate names
  | valueExpected s => s!"argument {s.title}: expected one argument"
  | valueIgnored s value =>
    s!"argument {s.title}: ignored explicit argument " ++ Text.quoted value
  | notWhole s value => s!"argument {s.title}: invalid int value: " ++ Text.quoted value
  | noSource => "the following arguments are required: source"
  | unknownCommand name =>
    s!"argument COMMAND: invalid choice: {Text.quoted name} (choose from " ++
      ", ".intercalate (Name.all.map fun n => Text.quoted n.text) ++ ")"
  | unrecognized arguments => "unrecognized arguments: " ++ " ".intercalate arguments

/-! ## Texts -/

/-- How the program, or one of its commands, is called. -/
def title : Option Name → String
  | none => "flowml"
  | some n => "flowml " ++ n.text

def usage : Option Name → String
  | none => "usage: flowml [-h] COMMAND ...\n"
  | some .build =>
    "usage: flowml build [-h] [-o OUTPUT] [--config CONFIG] [--no-fence] source\n"
  | some .check => "usage: flowml check [-h] source\n"
  | some .serve => "usage: flowml serve [-h] [--port PORT] [--host HOST] source\n"

/-- The explanation below the usage line. -/
def explanation : Option Name → List String
  | none =>
    ["FlowML: transpile diagram notation to Mermaid flowcharts",
     "",
     "positional arguments:",
     "  COMMAND",
     "    build     Transpile a FlowML file to a Mermaid document",
     "    check     Check a FlowML file for errors and inconsistencies",
     "    serve     Launch the diagram preview",
     "",
     "options:",
     "  -h, --help  show this help message and exit"]
  | some .build =>
    ["Transpile a FlowML source file and write the Mermaid flowchart document.",
     "",
     "positional arguments:",
     "  source                FlowML source file",
     "",
     "options:",
     "  -h, --help            show this help message and exit",
     "  -o OUTPUT, --output OUTPUT",
     "                        Output file (default: the source path with the",
     "                        configured suffix)",
     "  --config CONFIG       Project configuration file (default: .flowml.yaml next",
     "                        to the source, if present)",
     "  --no-fence            Write a bare Mermaid file without the Markdown fence"]
  | some .check =>
    ["Parse a FlowML source file and report undeclared or duplicate nodes.",
     "",
     "positional arguments:",
     "  source      FlowML source file",
     "",
     "options:",
     "  -h, --help  show this help message and exit"]
  | some .serve =>
    ["Launch a web page that renders the FlowML file as a flowchart.",
     "",
     "positional arguments:",
     "  source       FlowML source file",
     "",
     "options:",
     "  -h, --help   show this help message and exit",
     "  --port PORT  Port to run the server on (default: 8050)",
     "  --host HOST  Host to bind the server to (default: 127.0.0.1)"]

def help (n : Option Name) : String :=
  usage n ++ "\n" ++ String.join ((explanation n).map (· ++ "\n"))

def misuse (n : Option Name) (f : UsageFault) : String :=
  usage n ++ title n ++ ": error: " ++ f.message ++ "\n"

end Flowchart.Command
