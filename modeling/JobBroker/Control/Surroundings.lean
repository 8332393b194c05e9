import JobBroker.Status
import JobBroker.Stream.Reader
import JobBroker.Stream.Writer
/-!
What the control program finds around it: whom it can reach, how long an exchange takes, and the
answers that a worker makes up.
-/
namespace JobBroker.Control

structure Link where
  reads : List Bytes
  /-- Why reading fails behind the last read, if the other side does not end its sending. -/
  failure : Option String := none
  outlet : Outlet := .sink none []
  deriving DecidableEq, Repr

def Link.items (l : Link) : List Inbound := StreamReader.itemsOf l.failure.isNone {} l.reads

/-- The surroundings of one run. Whoever cannot be reached, the system tells why. -/
structure Surroundings where
  build : Build := .checked
  /-- The body of a broker's answer over HTTP, from this machine. -/
  fetch : UInt16 → Route → Except String Bytes
  /-- The connection to a host and port. -/
  connect : String → UInt16 → Except String Link
  /-- How long the exchange with a broker takes. -/
  elapsed : Millis := 0
  /-- The number that a worker makes up for its first job, its second, and so on. -/
  draw : Nat → UInt32 := fun _ => 0

def Surroundings.unreachable (cause : String) : Surroundings where
  fetch _ _ := .error cause
  connect _ _ := .error cause

end JobBroker.Control
