import Std.Async.Signal
import Std.Time
import Socks.CommandLine
import Socks.Network

/-!
# The program

Reads the arguments and the configuration, serves until a signal comes, and keeps the log.
-/

namespace Socks.Program

open Std.Async

/-- Writes a line of the log, if it is shown. -/
def log (o : CommandLine.Options) (line : LogLine) : IO Unit := do
  if o.level.shows line.level then
    let now := Std.Time.DateTime.ofTimestampWithZone (← Std.Time.Timestamp.now) .UTC
    let time := now.format "uuuu-MM-dd'T'HH:mm:ss.SSSSSS'Z'"
    IO.println (if o.json then line.json time else line.plain time)
    (← IO.getStdout).flush

/-- Ends the program. -/
def close (e : CommandLine.Ending) : IO UInt32 := do
  for text in e.error? do
    IO.eprintln text
  return UInt32.ofNat e.code

/-- Cancels a token at the first signal that asks the program to stop, and tells its name. -/
def awaitSignal (stop : Std.CancellationToken) : IO (IO.Promise String) := do
  let name ← IO.Promise.new
  let named (signal : Signal) (text : String) : IO Unit := do
    BaseIO.chainTask (← (← Signal.Waiter.mk signal false).wait) fun _ => do
      name.resolve text
      stop.cancel
  named .sigint "Ctrl+C"
  named .sigterm "SIGTERM"
  return name

/-- Serves as told until a signal comes. -/
def serve (o : CommandLine.Options) : IO UInt32 := do
  let content ← Network.outcome (IO.FS.readBinFile o.config)
  match o.configure (content.map ByteArray.toList) with
  | .error p => close (CommandLine.misconfigured p)
  | .ok c =>
    for line in CommandLine.announcement o.config c do
      log o line
    match Server.build c with
    | .error conflict => close (CommandLine.misconfigured (.conflict conflict))
    | .ok server =>
      match ← Network.listenAt? server.listenAddress with
      | none => close (CommandLine.unheard server.listenAddress [])
      | some (listener, place) =>
        let stop ← Std.CancellationToken.new
        let signal ← awaitSignal stop
        log o (CommandLine.listening place.toText)
        Network.serve ⟨server, log o, stop⟩ listener []
        for line in CommandLine.farewell (signal.result?.get.getD "") do
          log o line
        return 0

end Socks.Program

/-- The program: proxies SOCKS connections as its configuration file says. -/
def main (arguments : List String) : IO UInt32 := do
  match Socks.CommandLine.parse arguments with
  | .serve o => Socks.Program.serve o
  | .version =>
    IO.println (Socks.programName ++ " " ++ Socks.programVersion)
    return 0
  | .help =>
    IO.println Socks.CommandLine.help
    return 0
  | .misuse =>
    IO.eprintln Socks.CommandLine.usage
    return 2
