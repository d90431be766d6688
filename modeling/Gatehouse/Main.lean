import Gatehouse.CommandLine
import Gatehouse.Startup
/-!
# Checking a configuration

Reads the configuration that the command line names and shows what the gates built from it log
as they start.
-/

open Gatehouse

def readContents (path : String) : IO (Except IoFailure String) := do
  try
    return .ok (← IO.FS.readFile path)
  catch _ =>
    return .error .noSuchFile

def main (arguments : List String) : IO UInt32 := do
  match Options.parse arguments with
  | .error e =>
    IO.eprintln ("error: " ++ e.message)
    return 2
  | .ok (options, path) =>
    let loaded := Config.ofFile (← readContents path)
    let started := do
      let config ← loaded
      return (config.levelOf options.debug, ← config.startupLog .origin)
    match started with
    | .error e =>
      IO.eprintln ("Error: loading config: " ++ path ++ ": " ++ e.message)
      return 1
    | .ok (level, log) =>
      for r in LogRecord.upTo level log do
        IO.println r.render
      return 0
