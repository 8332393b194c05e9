import JobBroker.Control.Command
import JobBroker.Control.ReferenceWorker
import JobBroker.Control.Report
/-!
A run of the control program. The options are read first, so a fault among them is reported even
if the command is unknown.
-/
namespace JobBroker.Control

def url (port : UInt16) (route : Route) : String :=
  s!"http://127.0.0.1:{Decimal.write port.toNat}{route.path}"

def Conversation.outcome (c : Conversation) : Outcome :=
  .conclude c.output c.complaint c.failure

def ask (around : Surroundings) (port : UInt16) (route : Route) : Outcome :=
  match around.fetch port route with
  | .error e => .failed (.unreachableBroker (url port route) e)
  | .ok body =>
    match (JsonText.ofBytes? body).bind (Report.ofAnswer? route) with
    | none => .failed .unreadableAnswer
    | some lines => { output := lines }

def converse (around : Surroundings) (side : String) (o : Options) (usualPort : UInt16)
    (act : UInt16 → Link → Conversation) : Outcome :=
  let port := o.port.getD usualPort
  match around.connect o.host port with
  | .error e => .failed (.unreachablePort side o.host port e)
  | .ok link => (act port link).outcome

def perform (around : Surroundings) (o : Options) : Command → Outcome
  | .ask route => ask around o.apiPort route
  | .submit =>
    converse around "requester" o ({} : Network).requesterPort fun _ link =>
      submit around.build o link around.elapsed
  | .worker =>
    converse around "worker" o ({} : Network).workerPort fun port link =>
      serve o port link around.draw
  | .help => { output := usage }

def unknownCommand (words : List String) : Outcome :=
  { code := 1
    output := usage
    complaint := ["Unknown command: " ++ String.intercalate " " words, ""] }

def run (around : Surroundings) (args : List String) : Outcome :=
  match Options.read args with
  | .error e => .failed (.usage e)
  | .ok (o, words) =>
    match Command.ofWords? words with
    | none => unknownCommand words
    | some c => perform around o c

end JobBroker.Control
