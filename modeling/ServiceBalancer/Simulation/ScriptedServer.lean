import ServiceBalancer.Api.Request

/-! An API server that answers from a script and notes what it was asked. -/
namespace ServiceBalancer.Simulation

/-- A scripted answer. A stream of lines ends after the last one, or stays open. -/
inductive ScriptedAnswer where
  | response (r : Api.Response)
  | stream (lines : List Json) (staysOpen : Bool)

/-- The server: the answers left for each request, and the requests so far. -/
structure ScriptedServer where
  script : List (String × List ScriptedAnswer) := []
  log : List Api.Request := []

namespace ScriptedServer

def add (s : ScriptedServer) (request : String) (answers : List ScriptedAnswer) : ScriptedServer :=
  let old := (s.script.lookup request).getD []
  { s with script := (request, old ++ answers) :: s.script.filter (fun entry => entry.1 ≠ request) }

def take (s : ScriptedServer) (r : Api.Request) : Option ScriptedAnswer × ScriptedServer :=
  let s := { s with log := s.log ++ [r] }
  match s.script.lookup r.text with
  | some (answer :: rest) =>
    (some answer, { s with script := (r.text, rest) :: s.script.filter (fun entry => entry.1 ≠ r.text) })
  | _ => (none, s)

/-- Answers a request. Without an answer left, it is never answered. -/
def reply (r : Api.Request) (s : ScriptedServer) : Program.Reply Api.Response × ScriptedServer :=
  match s.take r with
  | (some (.response response), s) => (.now response, s)
  | (some (.stream lines _), s) => (.now ⟨200, .arr lines⟩, s)
  | (none, s) => (.never, s)

end ScriptedServer
end ServiceBalancer.Simulation
