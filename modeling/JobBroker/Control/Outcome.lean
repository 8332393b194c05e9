import JobBroker.Control.Options
import JobBroker.Control.Surroundings
import JobBroker.Text.Split
/-!
How a run of the control program ends. A failure is told with its causes, outermost first.
-/
namespace JobBroker.Control

inductive Failure where
  | usage (cause : UsageError)
  | unreachableBroker (url : String) (cause : String)
  | unreadableAnswer
  /-- No connection to the port for requesters, or for workers. -/
  | unreachablePort (side host : String) (port : UInt16) (cause : String)
  | handshakeNotSent (cause : SendError)
  | jobNotSent (id : UInt64) (cause : SendError)
  | resultNotSent (id : UInt64) (cause : SendError)
  | connectionFailed (cause : String)
  | closedEarly (received count : Nat)
  | panicked (cause : Panic)
  deriving DecidableEq, Repr

def causesOfSend (e : SendError) : List String :=
  match e with
  | .packet cause => [e.message, cause.message]
  | .io cause => [e.message, cause]

namespace Failure

def headline : Failure → String
  | usage e => e.message
  | unreachableBroker url _ => s!"failed to connect to loadstard at {url}, is it running?"
  | unreadableAnswer => "failed to parse response"
  | unreachablePort side host port _ =>
    s!"failed to connect to {side} port {host}:{Decimal.write port.toNat}"
  | handshakeNotSent _ => "failed to send handshake"
  | jobNotSent id _ => s!"failed to send job {Decimal.write id.toNat}"
  | resultNotSent id _ => s!"failed to send result for job {Decimal.write id.toNat}"
  | connectionFailed _ => "connection failed"
  | closedEarly received count =>
    s!"coordinator closed the connection after {Decimal.write received} of " ++
      s!"{Decimal.write count} results"
  | panicked cause => cause.message

def causes : Failure → List String
  | usage _ | unreadableAnswer | closedEarly _ _ | panicked _ => []
  | unreachableBroker url cause =>
    [ s!"error sending request for url ({url})",
      "client error (Connect)",
      "tcp connect error",
      cause ]
  | unreachablePort _ _ _ cause => [cause]
  | handshakeNotSent cause | jobNotSent _ cause | resultNotSent _ cause => causesOfSend cause
  | connectionFailed cause => [cause]

def numbered (causes : List String) : List String :=
  causes.zipIdx.map fun (cause, i) => s!"    {Decimal.write i}: {cause}"

def code : Failure → UInt32
  | panicked _ => 101
  | _ => 1

/-- How the failure is introduced. Where in the program it panicked is not kept. -/
def introduced (f : Failure) : String :=
  match f with
  | panicked _ => f.headline
  | _ => s!"Error: {f.headline}"

/-- A failure as it is told. Only of several causes each has a number. -/
def lines (f : Failure) : List String :=
  let head := f.introduced
  match f.causes with
  | [] => [head]
  | [cause] => [head, "", "Caused by:", s!"    {cause}"]
  | causes => [head, "", "Caused by:"] ++ numbered causes

end Failure

structure Outcome where
  code : UInt32 := 0
  /-- What was printed, piece by piece, each on a line of its own. -/
  output : List String := []
  /-- What was printed as complaint. -/
  complaint : List String := []
  deriving DecidableEq, Repr

namespace Outcome

def conclude (output complaint : List String) (failure : Option Failure) : Outcome :=
  match failure with
  | none => { output := output, complaint := complaint }
  | some f => { code := f.code, output := output, complaint := complaint ++ f.lines }

def failed (f : Failure) : Outcome := conclude [] [] (some f)

def shown (pieces : List String) : List String :=
  Text.lines (String.join (pieces.map (· ++ "\n")))

end Outcome
end JobBroker.Control
