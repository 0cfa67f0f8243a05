import Socks.Config.Reading
import Socks.Log
import Socks.Server

/-!
# The command line

The arguments of the program, what it logs, and how it ends. Arguments are judged one by one, so
the first that is wrong decides.
-/

namespace Socks

/-- The version of the program. -/
def programVersion : String := "0.1.0"

namespace CommandLine

/-- What the program is told to do. -/
structure Options where
  config : String
  listen? : Option String
  level : Level
  json : Bool
deriving DecidableEq

/-- What becomes of the arguments. -/
inductive Invocation where
  | serve (options : Options)
  | version
  | help
  | misuse
deriving DecidableEq

/-- The options that take a value. -/
inductive Key where
  | config | listen | logLevel
deriving DecidableEq

/-- What the arguments so far have said. -/
structure Given where
  config? : Option String
  listen? : Option String
  logLevel? : Option String
  json : Bool
deriving DecidableEq

namespace Given

/-- Nothing has been said. -/
def nothing : Given := ⟨none, none, none, false⟩

/-- The value of an option. -/
def get? (g : Given) : Key → Option String
  | .config => g.config?
  | .listen => g.listen?
  | .logLevel => g.logLevel?

/-- Sets an option. -/
def set (g : Given) (key : Key) (v : String) : Given :=
  match key with
  | .config => { g with config? := some v }
  | .listen => { g with listen? := some v }
  | .logLevel => { g with logLevel? := some v }

/-- Gives a value to an option: no option has two, and a path is not empty. -/
def put? (g : Given) (key : Key) (v : String) : Option Given :=
  if (g.get? key).isSome then none
  else if key = .config ∧ v = "" then none
  else some (g.set key v)

/-- What all arguments together ask for; a configuration has to be named. -/
def invocation (g : Given) : Invocation :=
  match g.config? with
  | some config => .serve ⟨config, g.listen?, (g.logLevel?.map Level.ofWord).getD .info, g.json⟩
  | none => .misuse

end Given

/-- The option of a long name. -/
def longKey? (name : String) : Option Key :=
  if name = "config" then some .config
  else if name = "listen" then some .listen
  else if name = "log-level" then some .logLevel
  else none

/-- The option of a letter. -/
def shortKey? (c : Char) : Option Key :=
  if c = 'c' then some .config else if c = 'l' then some .logLevel else none

/-- What an argument says. -/
inductive Word where
  | setting (key : Key) (value : String)
  | awaiting (key : Key)
  | json
  | version
  | help
  | noMore
  | wrong
deriving DecidableEq

/-- What an argument with two dashes says, given its name and what follows an equals sign. -/
def longWord (name : String) (value? : Option String) : Word :=
  match longKey? name, value? with
  | some key, some v => .setting key v
  | some key, none => .awaiting key
  | none, some _ => .wrong
  | none, none =>
    if name = "json-log" then .json
    else if name = "version" then .version
    else if name = "help" then .help
    else .wrong

/-- What an argument with one dash says: a flag, or an option with its value right after it. -/
def shortWord : List Char → Word
  | [] => .wrong
  | c :: rest =>
    match shortKey? c, rest with
    | some key, [] => .awaiting key
    | some key, '=' :: v => .setting key (String.ofList v)
    | some key, v => .setting key (String.ofList v)
    | none, _ => if c = 'V' then .version else if c = 'h' then .help else .wrong

/-- What an argument says. The program takes no others than options. -/
def word (argument : String) : Word :=
  match argument.toList with
  | ['-', '-'] => .noMore
  | '-' :: '-' :: rest =>
    let name := rest.takeWhile (· != '=')
    match rest.dropWhile (· != '=') with
    | _ :: v => longWord (String.ofList name) (some (String.ofList v))
    | [] => longWord (String.ofList name) none
  | '-' :: rest => shortWord rest
  | _ => .wrong

/-- Whether an argument can be the value of the option before it. -/
def isValue (argument : String) : Bool :=
  match argument.toList with
  | '-' :: _ :: _ => false
  | _ => true

/-- Judges arguments in order. -/
def judge (g : Given) : List String → Invocation
  | [] => g.invocation
  | argument :: rest =>
    match word argument with
    | .setting key v =>
      match g.put? key v with
      | some g => judge g rest
      | none => .misuse
    | .awaiting key =>
      match rest with
      | [] => .misuse
      | v :: rest =>
        if isValue v then
          match g.put? key v with
          | some g => judge g rest
          | none => .misuse
        else .misuse
    | .json => if g.json then .misuse else judge { g with json := true } rest
    | .version => .version
    | .help => .help
    | .noMore => if rest.isEmpty then g.invocation else .misuse
    | .wrong => .misuse

/-- What the arguments ask for. -/
def parse (arguments : List String) : Invocation := judge .nothing arguments

/-- How the program is called. -/
def usage : String := "Usage: " ++ programName ++ " [OPTIONS] --config <CONFIG>"

/-- What the program is and how it is called. -/
def help : String :=
  "\n".intercalate
    ["SOCKS4, SOCKS4a and SOCKS5 proxy server", "", usage, "", "Options:",
     "  -c, --config <CONFIG>        Path to configuration file",
     "      --listen <LISTEN>        Override the configured listen address",
     "  -l, --log-level <LOG_LEVEL>  " ++
       "Log level (trace, debug, info, warn, error) [default: info]",
     "      --json-log               Enable JSON logging format",
     "  -h, --help                   Print help",
     "  -V, --version                Print version"]

/-- A line about the program as a whole. -/
def note (text : String) : LogLine := ⟨.info, programName, text⟩

/-- How a program ends: its lines on the log, its code, and what it says of an error. -/
structure Ending where
  log : List LogLine
  code : Nat
  error? : Option String
deriving DecidableEq

/-- The lines of a program that has read its configuration. -/
def announcement (file : String) (c : Config.Server) : List LogLine :=
  [note ("Socksd v" ++ programVersion),
   note ("Configuration loaded from: " ++ Text.quoted file),
   note
     ("Commands: connect=" ++ toString c.protocol.allowConnect ++
       " bind=" ++ toString c.protocol.allowBind ++
       " udp=" ++ toString c.protocol.allowDatagrams)]

/-- The line of a server that listens. -/
def listening (place : String) : LogLine :=
  ⟨.info, LogLine.serverOrigin, "SOCKS server listening on " ++ place⟩

/-- The lines of a server that is told to stop. -/
def farewell (signal : String) : List LogLine :=
  [note ("Received " ++ signal ++ ", shutting down..."),
   ⟨.info, LogLine.serverOrigin, "Shutdown signal received, stopping server"⟩,
   ⟨.info, LogLine.serverOrigin, "Server stopped"⟩]

/-- The first line of what is said of an error. -/
def errorLine (text : String) : String := "Error: " ++ text

/-- The configuration with another place to listen at, if one was given. -/
def Options.apply (o : Options) (c : Config.Server) : Config.Server :=
  { c with listenAddress := o.listen?.getD c.listenAddress }

/-- The configuration of a run, given the contents of its file. -/
def Options.configure (o : Options) (content : Except IoError Bytes) :
    Except Config.Problem Config.Server :=
  (Config.load (Text.quoted o.config) content).map o.apply

/-- The end of a program that cannot use its configuration. -/
def misconfigured (p : Config.Problem) : Ending := ⟨[], 1, some (errorLine p.stage)⟩

/-- The end of a program that cannot listen at an address. -/
def unheard (address : String) (log : List LogLine) : Ending :=
  ⟨log, 1, some (errorLine (Server.cannotListen address))⟩

/-- A run of the program that ends when it gets a signal: `read` gives the contents of files,
`bind?` the place of a listener, `signal` names the signal. -/
def run (read : String → Except IoError Bytes) (bind? : String → Option String) (signal : String)
    (o : Options) : Ending :=
  match o.configure (read o.config) with
  | .error p => misconfigured p
  | .ok c =>
    let opening := announcement o.config c
    match bind? c.listenAddress with
    | none => unheard c.listenAddress (LogLine.shown o.level opening)
    | some place =>
      ⟨LogLine.shown o.level (opening ++ listening place :: farewell signal), 0, none⟩

end CommandLine

end Socks
