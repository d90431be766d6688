/-!
# The command line

One argument names the configuration; `-d` or `--debug` asks for more of the log. After `--`
every argument is a name.
-/

namespace Gatehouse

/-- What the command line asks for. -/
structure Options where
  debug : Bool := false
  config : Option String := none
deriving DecidableEq

/-- Why a command line is refused. -/
inductive UsageError where
  | unexpected (argument : String)
  | missingConfig
deriving DecidableEq

def UsageError.message : UsageError → String
  | .unexpected argument => "unexpected argument " ++ argument
  | .missingConfig => "the configuration is missing"

namespace Options

/-- Takes an argument for the name of the configuration. -/
def setConfig (o : Options) (argument : String) : Except UsageError Options :=
  match o.config with
  | none => .ok { o with config := some argument }
  | some _ => .error (.unexpected argument)

/-- Takes the arguments in order. -/
def take (o : Options) : List String → Except UsageError Options
  | [] => .ok o
  | "-d" :: rest => take { o with debug := true } rest
  | "--debug" :: rest => take { o with debug := true } rest
  | "--" :: names => names.foldlM setConfig o
  | argument :: rest =>
    if argument.startsWith "-" then .error (.unexpected argument)
    else do (← o.setConfig argument).take rest

/-- The options and the name of the configuration. -/
def parse (arguments : List String) : Except UsageError (Options × String) := do
  let o ← take {} arguments
  match o.config with
  | some config => return (o, config)
  | none => throw .missingConfig

end Options

end Gatehouse
