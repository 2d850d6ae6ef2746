import ServiceBalancer.Cloud.Memory
import ServiceBalancer.Network.SocketAddress
import ServiceBalancer.Settings.File

/-! The command line: subcommands, the flags of a run and the variables that stand in for them. -/
namespace ServiceBalancer.CommandLine

/-- Why a command line leads to no command. The first three ask for a text instead. -/
inductive Refusal where
  | helpWanted
  | helpForNothing
  | versionWanted
  | unknownSubcommand
  | unknownArgument
  /-- a value that is missing, or not one of the possible ones -/
  | invalidValue
  /-- a value that cannot be read as what the flag wants -/
  | unreadableValue
  | repeatedFlag
  /-- a value for a flag that takes none -/
  | needlessValue
  | missingFlag
  deriving DecidableEq, Repr

namespace Refusal

def text? : Refusal → Option String
  | helpWanted | helpForNothing | versionWanted => none
  | unknownSubcommand => some "unrecognized subcommand"
  | unknownArgument => some "unexpected argument"
  | invalidValue => some "a value is missing or is not a possible one"
  | unreadableValue => some "a value cannot be read"
  | repeatedFlag => some "an argument cannot be used multiple times"
  | needlessValue => some "a value for an argument that takes none"
  | missingFlag => some "a required argument was not provided"

def isAnswer (r : Refusal) : Bool := r = helpWanted || r = versionWanted

end Refusal

inductive Flag where
  | cloudProvider
  | allowSimulated
  | config
  | workers
  | clusterName
  | resyncSeconds
  | leaseNamespace
  | leaderElect
  | metricsAddress
  | logJson
  deriving DecidableEq, Repr

namespace Flag

def all : List Flag := [cloudProvider, allowSimulated, config, workers, clusterName, resyncSeconds,
  leaseNamespace, leaderElect, metricsAddress, logJson]

def name : Flag → String
  | cloudProvider => "cloud-provider"
  | allowSimulated => "allow-simulated"
  | config => "config"
  | workers => "workers"
  | clusterName => "cluster-name"
  | resyncSeconds => "resync-seconds"
  | leaseNamespace => "namespace"
  | leaderElect => "leader-elect"
  | metricsAddress => "metrics-addr"
  | logJson => "log-json"

def variableName : Flag → String
  | cloudProvider => "CLOUD_PROVIDER"
  | allowSimulated => "ALLOW_SIMULATED_CLOUD"
  | config => "LB_CONTROLLER_CONFIG"
  | workers => "LB_CONTROLLER_WORKERS"
  | clusterName => "CLUSTER_NAME"
  | resyncSeconds => "LB_CONTROLLER_RESYNC_SECONDS"
  | leaseNamespace => "POD_NAMESPACE"
  | leaderElect => "LEADER_ELECT"
  | metricsAddress => "METRICS_ADDR"
  | logJson => "LOG_JSON"

def isSwitch (f : Flag) : Bool := f = allowSimulated || f = leaderElect || f = logJson

def ofName? (s : String) : Option Flag := all.find? (fun f => f.name = s)

def usage (f : Flag) : String :=
  "      --" ++ f.name ++ (if f.isSwitch then "" else " <VALUE>") ++ "  [env: " ++ f.variableName ++ "]"

end Flag

def usage : String := "\n".intercalate ([
  "Usage: service-lb-controller <COMMAND>",
  "",
  "Commands:",
  "  run      Run the controller",
  "  version  Show version and build information",
  "  info     Show load balancer services in the cluster",
  "  help     Print this message",
  "",
  "Options of run:"] ++ Flag.all.map Flag.usage)

inductive CloudKind where
  | memory
  deriving DecidableEq, Repr

structure Given where
  cloud : Option CloudKind := none
  allowSimulated : Option Bool := none
  config : Option String := none
  workers : Option Nat := none
  clusterName : Option String := none
  resyncSeconds : Option Nat := none
  leaseNamespace : Option String := none
  leaderElect : Option Bool := none
  metricsAddress : Option SocketAddress := none
  logJson : Option Bool := none

def number? (s : String) : Option Nat :=
  let digits := match s.toList with
    | '+' :: rest => rest
    | rest => rest
  if digits.isEmpty || !digits.all Char.isDigit then none
  else
    let n := digits.foldl (fun n c => n * 10 + (c.toNat - 48)) 0
    if n < Nat.pow 2 64 then some n else none

def truth? (s : String) : Option Bool :=
  if s = "true" then some true else if s = "false" then some false else none

def orRefuse {α : Type} (reason : Refusal) : Option α → Except Refusal α
  | some a => .ok a
  | none => .error reason

namespace Given

def has (g : Given) : Flag → Bool
  | .cloudProvider => g.cloud.isSome
  | .allowSimulated => g.allowSimulated.isSome
  | .config => g.config.isSome
  | .workers => g.workers.isSome
  | .clusterName => g.clusterName.isSome
  | .resyncSeconds => g.resyncSeconds.isSome
  | .leaseNamespace => g.leaseNamespace.isSome
  | .leaderElect => g.leaderElect.isSome
  | .metricsAddress => g.metricsAddress.isSome
  | .logJson => g.logJson.isSome

def accept (g : Given) (f : Flag) (value : String) : Except Refusal Given := do
  match f with
  | .cloudProvider =>
    if value = "memory" then return { g with cloud := some .memory } else throw .invalidValue
  | .allowSimulated => return { g with allowSimulated := ← orRefuse .invalidValue (truth? value) }
  | .config => if value = "" then throw .invalidValue else return { g with config := some value }
  | .workers => return { g with workers := ← orRefuse .unreadableValue (number? value) }
  | .clusterName => return { g with clusterName := some value }
  | .resyncSeconds => return { g with resyncSeconds := ← orRefuse .unreadableValue (number? value) }
  | .leaseNamespace => return { g with leaseNamespace := some value }
  | .leaderElect => return { g with leaderElect := ← orRefuse .invalidValue (truth? value) }
  | .metricsAddress =>
    return { g with metricsAddress := ← orRefuse .unreadableValue (SocketAddress.ofText? value) }
  | .logJson => return { g with logJson := ← orRefuse .invalidValue (truth? value) }

def acceptOnce (g : Given) (f : Flag) (value : String) : Except Refusal Given :=
  if g.has f then .error .repeatedFlag else g.accept f value

def fill (environment : String → Option String) (g : Given) : Except Refusal Given :=
  Flag.all.foldlM (fun g f =>
    if g.has f then .ok g
    else
      match environment f.variableName with
      | some value => g.accept f value
      | none => .ok g) g

end Given

structure RunOptions where
  cloud : CloudKind
  allowSimulated : Bool
  config : Option String
  overrides : Settings.Overrides
  leaseNamespace : String
  leaderElect : Bool
  metricsAddress : SocketAddress
  logJson : Bool

def Given.options (g : Given) : Except Refusal RunOptions := do
  return {
    cloud := ← orRefuse .missingFlag g.cloud
    allowSimulated := g.allowSimulated.getD false
    config := g.config
    overrides := ⟨g.workers, g.clusterName, g.resyncSeconds⟩
    leaseNamespace := g.leaseNamespace.getD "kube-system"
    leaderElect := g.leaderElect.getD false
    metricsAddress := g.metricsAddress.getD (.v4 [0, 0, 0, 0] 8080)
    logJson := g.logJson.getD false }

inductive Word where
  /-- the two dashes after which no word is a flag -/
  | divider
  | long (name : String) (value : Option String)
  | short (letters : List Char)
  | plain (s : String)

def Word.ofLong (s : List Char) : Word :=
  let name := s.takeWhile (· ≠ '=')
  match s.drop name.length with
  | [] => .long (.ofList name) none
  | _ :: value => .long (.ofList name) (some (.ofList value))

def Word.ofText (s : String) : Word :=
  match s.toList with
  | ['-', '-'] => .divider
  | ['-'] => .plain s
  | '-' :: '-' :: rest => .ofLong rest
  | '-' :: rest => .short rest
  | _ => .plain s

/-- How far the words of a run have been read: what has been given, the flag that waits for its
value or has a value not taken in yet, and whether the divider has been passed. -/
structure RunProgress where
  given : Given := {}
  pending : Option (Flag × Option String) := none
  divided : Bool := false

namespace RunProgress

/-- Takes in the flag that waits. It must have got its value. -/
def settle (p : RunProgress) : Except Refusal RunProgress := do
  match p.pending with
  | none => return p
  | some (_, none) => throw .invalidValue
  | some (f, some value) => return { p with given := ← p.given.acceptOnce f value, pending := none }

def long (p : RunProgress) (name : String) (value : Option String) : Except Refusal RunProgress := do
  match Flag.ofName? name with
  | none =>
    if name ≠ "help" then throw .unknownArgument
    else if value.isSome then throw .needlessValue
    else
      let _ ← p.settle
      throw .helpWanted
  | some f =>
    if f.isSwitch then
      if value.isSome then throw .needlessValue
      else
        let p ← p.settle
        return { p with given := ← p.given.acceptOnce f "true" }
    else
      let p ← p.settle
      match value with
      | none => return { p with pending := some (f, none) }
      | some value => return { p with given := ← p.given.acceptOnce f value }

/-- Takes in a word. Runs have one short flag, and no plain word but the values of flags. -/
def add (p : RunProgress) (s : String) : Except Refusal RunProgress := do
  if p.divided then throw .unknownArgument
  match Word.ofText s with
  | .divider => return { p with divided := true }
  | .long name value => p.long name value
  | .short letters =>
    if letters.head? = some 'h' then
      let _ ← p.settle
      throw .helpWanted
    else throw .unknownArgument
  | .plain s =>
    match p.pending with
    | some (f, none) => return { p with pending := some (f, some s) }
    | _ => throw .unknownArgument

end RunProgress

def runOptions (words : List String) (environment : String → Option String) : Except Refusal RunOptions := do
  let p ← words.foldlM RunProgress.add {}
  let p ← p.settle
  (← p.given.fill environment).options

inductive Command where
  | run (options : RunOptions)
  | version
  | info

def noOptions : List String → Except Refusal Unit
  | [] => .ok ()
  | word :: rest =>
    match Word.ofText word with
    | .divider => if rest.isEmpty then .ok () else .error .unknownArgument
    | .long "help" none => .error .helpWanted
    | .long "help" (some _) => .error .needlessValue
    | .short ('h' :: _) => .error .helpWanted
    | _ => .error .unknownArgument

/-- The words after `help`: at most one subcommand, which `help` itself is too. -/
def helpOn : List String → Refusal
  | [] => .helpWanted
  | [name] => if name ∈ ["run", "version", "info", "help"] then .helpWanted else .unknownSubcommand
  | _ => .unknownSubcommand

def command (words : List String) (environment : String → Option String) : Except Refusal Command := do
  match words with
  | [] => throw .helpForNothing
  | word :: rest =>
    match Word.ofText word with
    | .plain "run" => return .run (← runOptions rest environment)
    | .plain "version" => noOptions rest; return .version
    | .plain "info" => noOptions rest; return .info
    | .plain "help" => throw (helpOn rest)
    | .plain _ => throw .unknownSubcommand
    | .divider =>
      match rest with
      | [] => throw .helpForNothing
      | name :: _ => throw (if name ∈ ["run", "version", "info", "help"] then .unknownArgument else .unknownSubcommand)
    | .long "help" none => throw .helpWanted
    | .long "version" none => throw .versionWanted
    | .long name (some _) => throw (if name = "help" ∨ name = "version" then .needlessValue else .unknownArgument)
    | .short ('h' :: _) => throw .helpWanted
    | .short ('V' :: _) => throw .versionWanted
    | _ => throw .unknownArgument

namespace RunOptions

/-- The settings of a run, given the content of its settings file. -/
def settings (o : RunOptions) (content : Option ByteArray) : Except Settings.FileFault Settings :=
  Settings.combined (o.config.map (fun _ => content)) o.overrides

/-- The cloud of a run. One that only simulates must be asked for. -/
def provider (o : RunOptions) (s : Settings) : Except Error CloudProvider :=
  match o.cloud with
  | .memory =>
    if o.allowSimulated then .ok (.memory { rules := s.rules })
    else .error (.config
      "cloud provider 'memory' only simulates load balancers and writes addresses that route nowhere; pass --allow-simulated to run it against a cluster")

end RunOptions
end ServiceBalancer.CommandLine
