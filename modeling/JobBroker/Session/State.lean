/-!
The stages of a connection. They are passed in one direction only.
-/
namespace JobBroker

inductive SessionState where
  | connecting
  | active
  | draining
  | closed
  deriving DecidableEq, Repr

namespace SessionState

def rank : SessionState → Nat
  | connecting => 0
  | active => 1
  | draining => 2
  | closed => 3

/-- Go on to a stage, unless it lies behind. -/
def advance (s target : SessionState) : SessionState := if s.rank < target.rank then target else s

end SessionState
end JobBroker
