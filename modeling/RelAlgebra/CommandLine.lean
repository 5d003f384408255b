/-
The command line of the demo program: which demo to run, whether to show
the log, and requests for help or for the version. Arguments are read from
left to right, and the first request for help or error in them decides.
-/
import RelAlgebra.Demo.Catalogue

namespace RelAlgebra.CommandLine

/-- What was asked for so far. -/
structure Options where
  demo : Option Demo := none
  debug : Bool := false

/-- What the program is asked to do. -/
inductive Request where
  | run (options : Options)
  | help (long : Bool)
  | version

/-- Why the arguments cannot be read. -/
inductive UsageError where
  | unexpectedArgument (argument : String)
  | unexpectedValue (option : String)
  | missingValue (option : String)
  | invalidValue (value : String)
  | repeatedOption (option : String)

/-- The demo of that name. -/
def demoNamed? : String → Option Demo
  | "students" => some .students
  | "joins" => some .joins
  | "division" => some .division
  | "all" => some .all
  | _ => none

/-- Chooses a demo, which can be done once. -/
def chooseDemo (options : Options) (value : String) :
    Except UsageError Options :=
  match demoNamed? value with
  | none => .error (.invalidValue value)
  | some demo =>
    if options.demo.isSome then
      .error (.repeatedOption "--demo <DEMO>")
    else
      .ok { options with demo := some demo }

/-- Turns the log on, which can be done once. -/
def enableDebug (options : Options) : Except UsageError Options :=
  if options.debug then
    .error (.repeatedOption "--debug")
  else
    .ok { options with debug := true }

/-- Reads the letters of an argument such as `-dV`. -/
def readLetters (options : Options) :
    List Char → Except UsageError (Options ⊕ Request)
  | [] => .ok (.inl options)
  | 'd' :: rest => do readLetters (← enableDebug options) rest
  | 'h' :: _ => .ok (.inr (.help false))
  | 'V' :: _ => .ok (.inr .version)
  | c :: _ => .error (.unexpectedArgument (String.ofList ['-', c]))

/-- A flag that stands alone, without `=` and a value. -/
def readFlag (name : String) (options : Options) :
    Except UsageError (Options ⊕ Request) :=
  match name with
  | "debug" => return .inl (← enableDebug options)
  | "help" => .ok (.inr (.help true))
  | "version" => .ok (.inr .version)
  | _ => .error (.unexpectedArgument ("--" ++ name))

/-- Whether a long argument names a flag. -/
def isFlag (name : String) : Bool :=
  name = "debug" || name = "help" || name = "version"

/-- A name with the value attached to it by `=`. -/
def readAttached (name value : String) (options : Options) :
    Except UsageError Options :=
  if name = "demo" then
    chooseDemo options value
  else if isFlag name then
    .error (.unexpectedValue ("--" ++ name))
  else
    .error (.unexpectedArgument ("--" ++ name))

/-- Whether an argument can be the value of an option before it. -/
def isValue (argument : String) : Bool :=
  match argument.toList with
  | '-' :: _ :: _ => false
  | _ => true

/-- Reads the arguments from left to right. -/
def parseFrom (options : Options) : List String → Except UsageError Request
  | [] => .ok (.run options)
  | argument :: rest =>
    match argument.toList with
    | ['-', '-'] =>
      match rest with
      | [] => .ok (.run options)
      | extra :: _ => .error (.unexpectedArgument extra)
    | '-' :: '-' :: text =>
      let name := String.ofList (text.takeWhile (· ≠ '='))
      match text.dropWhile (· ≠ '=') with
      | _ :: value => do
        parseFrom (← readAttached name (String.ofList value) options) rest
      | [] =>
        if name = "demo" then
          match rest with
          | value :: rest =>
            if isValue value then do
              parseFrom (← chooseDemo options value) rest
            else
              .error (.missingValue "--demo <DEMO>")
          | [] => .error (.missingValue "--demo <DEMO>")
        else do
          match ← readFlag name options with
          | .inl options => parseFrom options rest
          | .inr request => return request
    | '-' :: c :: letters => do
      match ← readLetters options (c :: letters) with
      | .inl options => parseFrom options rest
      | .inr request => return request
    | _ => .error (.unexpectedArgument argument)

/-- What the arguments ask for. -/
def parse (arguments : List String) : Except UsageError Request :=
  parseFrom {} arguments

-- ============================================================ responses

def usage : String := "Usage: vibealgebra [OPTIONS]\n"

def about : String := "VibeAlgebra - an in-memory relational algebra engine\n"

/-- The answer to `-h`. -/
def shortHelp : String :=
  about ++ "\n" ++ usage ++ "\n" ++ "Options:\n"
    ++ "      --demo <DEMO>  Demo to run [default: all] "
    ++ "[possible values: students, joins, division, all]\n"
    ++ "  -d, --debug        Enable debug logging\n"
    ++ "  -h, --help         Print help (see more with '--help')\n"
    ++ "  -V, --version      Print version\n"

/-- The answer to `--help`. -/
def longHelp : String :=
  about ++ "\n" ++ usage ++ "\n" ++ "Options:\n"
    ++ "      --demo <DEMO>\n"
    ++ "          Demo to run\n\n"
    ++ "          Possible values:\n"
    ++ "          - students: Projection, selection, rename and ordering "
    ++ "over one relation\n"
    ++ "          - joins:    Natural, theta and semi joins\n"
    ++ "          - division: Relational division\n"
    ++ "          - all:      Every demo in turn\n"
    ++ "          \n"
    ++ "          [default: all]\n\n"
    ++ "  -d, --debug\n          Enable debug logging\n\n"
    ++ "  -h, --help\n"
    ++ "          Print help (see a summary with '-h')\n\n"
    ++ "  -V, --version\n          Print version\n"

def version : String := "vibealgebra 0.1.0\n"

def UsageError.message : UsageError → String
  | .unexpectedArgument a => "unexpected argument '" ++ a ++ "' found"
  | .unexpectedValue o => "unexpected value for '" ++ o ++ "' found"
  | .missingValue o =>
    "a value is required for '" ++ o ++ "' but none was supplied"
  | .invalidValue v => "invalid value '" ++ v ++ "' for '--demo <DEMO>'"
  | .repeatedOption o =>
    "the argument '" ++ o ++ "' cannot be used multiple times"

/-- What the program answers. -/
structure Response where
  exitCode : UInt32
  output : String
  errors : String

/-- The log lines that the debug option shows: all but the finest. -/
def debugLog (events : List Event) : String :=
  let lines := events.filterMap Event.line?
  String.join ((lines.filter (·.startsWith "DEBUG")).map (· ++ "\n"))

/-- Runs the demo that the options choose, by default all. -/
def runDemo (options : Options) : Response :=
  let ended := (options.demo.getD .all).run
  let log := if options.debug then debugLog ended.events else ""
  match ended.value with
  | (text, none) => ⟨0, text, log⟩
  | (text, some e) => ⟨1, text, log ++ "Error: " ++ e.message ++ "\n"⟩

/-- The answer to a command line. -/
def respond (arguments : List String) : Response :=
  match parse arguments with
  | .ok (.run options) => runDemo options
  | .ok (.help long) => ⟨0, if long then longHelp else shortHelp, ""⟩
  | .ok .version => ⟨0, version, ""⟩
  | .error e =>
    ⟨2, "", "error: " ++ e.message ++ "\n\n" ++ usage
      ++ "\nFor more information, try '--help'.\n"⟩

end RelAlgebra.CommandLine
