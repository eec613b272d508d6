import RadioModem.Configuration.Reader
import RadioModem.Session

/-!
# The command line

Arguments are taken from left to right. Help and version end the program as soon as they are met;
so does the first argument that makes no sense. A value follows its option as an argument of its
own, after an equals sign, or, for a short option, at once.
-/
namespace RadioModem.CommandLine

inductive Setting
  | config
  | port
  | bind
  | nodeId
  | logLevel
  deriving DecidableEq, Repr

structure Options where
  config : Option String
  port : Option UInt16
  bind : Option String
  nodeId : Option Address
  logLevel : Option String
  deriving DecidableEq, Repr

def Options.unset : Options := ⟨none, none, none, none, none⟩

/-- Takes a value once; a second one for the same option is refused. -/
def once {α : Type} (held new : Option α) : Option (Option α) :=
  if held.isSome then none else new.map some

/-- Numbers are 16 bits wide, and a file needs a name. -/
def Options.take (o : Options) (value : String) : Setting → Option Options
  | .config =>
    (once o.config (if value.isEmpty then none else some value)).map ({ o with config := · })
  | .port => (once o.port (Text.Decimal.word16 value.toList)).map ({ o with port := · })
  | .bind => (once o.bind (some value)).map ({ o with bind := · })
  | .nodeId => (once o.nodeId (Text.Decimal.word16 value.toList)).map ({ o with nodeId := · })
  | .logLevel => (once o.logLevel (some value)).map ({ o with logLevel := · })

/-- What one argument is. -/
inductive Argument
  | help
  | version
  | ended
  | given (setting : Setting) (value : String)
  | awaiting (setting : Setting)
  | unknown
  deriving DecidableEq, Repr

def longSetting? (name : String) : Option Setting :=
  if name = "config" then some .config
  else if name = "port" then some .port
  else if name = "bind" then some .bind
  else if name = "node-id" then some .nodeId
  else if name = "log-level" then some .logLevel
  else none

def shortSetting? : Char → Option Setting
  | 'c' => some .config
  | 'p' => some .port
  | 'n' => some .nodeId
  | _ => none

def Argument.ofLong (text : List Char) : Argument :=
  let name := String.ofList (text.takeWhile (· != '='))
  match text.dropWhile (· != '='), longSetting? name with
  | [], some setting => .awaiting setting
  | _ :: value, some setting => .given setting (String.ofList value)
  | [], none => if name = "help" then .help else if name = "version" then .version else .unknown
  | _ :: _, none => .unknown

def Argument.ofShort (name : Char) (text : List Char) : Argument :=
  match shortSetting? name, text with
  | some setting, [] => .awaiting setting
  | some setting, '=' :: value => .given setting (String.ofList value)
  | some setting, value => .given setting (String.ofList value)
  | none, _ => if name = 'h' then .help else if name = 'V' then .version else .unknown

def Argument.ofText (text : String) : Argument :=
  match text.toList with
  | ['-', '-'] => .ended
  | '-' :: '-' :: text => ofLong text
  | '-' :: name :: text => ofShort name text
  | _ => .unknown

/-- An argument that looks like an option is never a value. -/
def isValue (text : String) : Bool := text = "-" || text.toList.head? != some '-'

inductive Parsed
  | help
  | version
  | misuse
  | options (o : Options)
  deriving DecidableEq, Repr

def parseFrom (o : Options) : List String → Parsed
  | [] => .options o
  | text :: rest =>
    match Argument.ofText text with
    | .help => .help
    | .version => .version
    | .unknown => .misuse
    | .ended => if rest.isEmpty then .options o else .misuse
    | .given setting value =>
      match o.take value setting with
      | some o => parseFrom o rest
      | none => .misuse
    | .awaiting setting =>
      match rest with
      | [] => .misuse
      | value :: rest =>
        if isValue value then
          match o.take value setting with
          | some o => parseFrom o rest
          | none => .misuse
        else .misuse

def parse (arguments : List String) : Parsed := parseFrom .unset arguments

def helpText : String :=
  "Simulated radio modem with an AT command console\n\n" ++
  "Usage: rfmodem [OPTIONS]\n\n" ++
  "Options:\n" ++
  "  -c, --config <CONFIG>        Node configuration file (YAML)\n" ++
  "  -p, --port <PORT>            TCP port for the serial console\n" ++
  "      --bind <BIND>            Address to bind the serial console to\n" ++
  "  -n, --node-id <NODE_ID>      Node id, overriding the configuration file\n" ++
  "      --log-level <LOG_LEVEL>  Log filter used when RUST_LOG is not set [default: info]\n" ++
  "  -h, --help                   Print help\n" ++
  "  -V, --version                Print version\n"

def versionText : String := "rfmodem 0.1.0\n"

/-- Options replace what the configuration says. -/
def Options.adjust (o : Options) (c : Configuration) : Configuration :=
  { c with
    uart := ⟨o.bind.getD c.uart.bind, (o.port.map UInt16.toNat).getD c.uart.port⟩
    identity := { c.identity with node := o.nodeId.getD c.identity.node } }

/-- The configuration in a file, whose text is looked up by its name. -/
def load (file : String → Option String) (name : String) : Except SetupError Configuration :=
  match file name with
  | some text => Configuration.parse text
  | none => .error .unreadableFile

def Options.configuration (o : Options) (file : String → Option String) :
    Except SetupError Configuration :=
  match o.config with
  | some name => (load file name).map o.adjust
  | none => .ok (o.adjust .standard)

/-- How the program starts: it ends with some text, a usage error or a set-up error, or a session
is ready to be served. -/
inductive Start
  | printed (text : String)
  | misused
  | failed (e : SetupError)
  | ready (c : Configuration) (s : Session)

def start (file : String → Option String) (arguments : List String) : Start :=
  match parse arguments with
  | .help => .printed helpText
  | .version => .printed versionText
  | .misuse => .misused
  | .options o =>
    match o.configuration file with
    | .error e => .failed e
    | .ok c =>
      match Session.ofConfiguration c with
      | .error e => .failed e
      | .ok s => .ready c s

/-- The exit status of a start; a session that is ready has not failed. -/
def Start.status : Start → UInt32
  | .printed _ => 0
  | .misused => 2
  | .failed _ => 1
  | .ready _ _ => 0

/-- What a start writes to standard output. -/
def Start.output : Start → String
  | .printed text => text
  | _ => ""

/-- What a start reports when it fails. -/
def Start.report? : Start → Option String
  | .failed e => some e.report
  | _ => none

end RadioModem.CommandLine
