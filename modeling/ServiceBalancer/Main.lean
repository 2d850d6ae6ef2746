import ServiceBalancer.CommandLine
import ServiceBalancer.Telemetry

/-! The program. It reads its command line, its variables and its settings file, and goes as far as
it can without a connection to a cluster, which it has no client for. -/
namespace ServiceBalancer.Main

def version : String := "0.1.0"

def readVariables : IO (List (String × String)) :=
  CommandLine.Flag.all.filterMapM (fun f => do
    return (← IO.getEnv f.variableName).map (f.variableName, ·))

def readContent? (path : String) : IO (Option ByteArray) :=
  try some <$> IO.FS.readBinFile path catch _ => return none

def fail (text : String) (code : UInt32) : IO UInt32 := do
  IO.eprintln ("error: " ++ text)
  return code

def refuse (r : CommandLine.Refusal) : IO UInt32 := do
  match r.text? with
  | some text => fail text 2
  | none =>
    let answer := if r = .versionWanted then Telemetry.serviceName ++ " " ++ version else CommandLine.usage
    if r.isAnswer then IO.println answer else IO.eprintln answer
    return if r.isAnswer then 0 else 2

def prepareRun (o : CommandLine.RunOptions) : IO UInt32 := do
  let content ← match o.config with
    | some path => readContent? path
    | none => pure none
  match o.settings content with
  | .error fault => fail (fault.toError (o.config.getD "")).text 1
  | .ok settings =>
    match o.provider settings with
    | .error e => fail e.text 1
    | .ok provider =>
      IO.println ("Starting " ++ Telemetry.serviceName ++ " v" ++ version ++ " for cluster " ++ settings.clusterName
        ++ " with cloud " ++ provider.name)
      fail "no connection to a cluster" 1

/-- Carries a command out. The result is the exit code. -/
def carryOut : CommandLine.Command → IO UInt32
  | .version => do
    IO.println (Telemetry.serviceName ++ " v" ++ version)
    return 0
  | .info => fail "no connection to a cluster" 1
  | .run o => prepareRun o

end ServiceBalancer.Main

def main (words : List String) : IO UInt32 := do
  let given ← ServiceBalancer.Main.readVariables
  match ServiceBalancer.CommandLine.command words (fun name => given.lookup name) with
  | .error r => ServiceBalancer.Main.refuse r
  | .ok c => ServiceBalancer.Main.carryOut c
