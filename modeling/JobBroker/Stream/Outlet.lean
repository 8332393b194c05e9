import JobBroker.Text.Utf8
/-!
Where a connection's bytes go. A pipe holds a limited number of bytes that the peer has not read,
and a writer waits for room; a sink takes a limited number in all, and fails after that. A buffer
takes everything, and what becomes of the bytes shows when it is flushed.
-/
namespace JobBroker

inductive Flushed where
  | done
  | waiting
  | broken (cause : String)
  deriving DecidableEq, Repr

inductive Outlet where
  | pipe (capacity : Nat) (unread : Bytes)
  | sink (room : Option Nat) (taken : Bytes)
  | buffer (flushed : Flushed) (taken : Bytes)
  deriving DecidableEq, Repr

inductive Written where
  | all
  /-- The rest waits for room. -/
  | blocked (rest : Bytes)
  | broken (cause : String)
  deriving DecidableEq, Repr

def brokenPipe : String := "broken pipe"

namespace Outlet

def write (o : Outlet) (bytes : Bytes) : Written × Outlet :=
  match o with
  | pipe capacity unread =>
    let free := capacity - unread.length
    let rest := bytes.drop free
    (if rest.isEmpty then .all else .blocked rest, pipe capacity (unread ++ bytes.take free))
  | sink none taken => (.all, sink none (taken ++ bytes))
  | sink (some room) taken =>
    let free := room - taken.length
    (if (bytes.drop free).isEmpty then .all else .broken brokenPipe,
      sink (some room) (taken ++ bytes.take free))
  | buffer flushed taken => (.all, buffer flushed (taken ++ bytes))

/-- The bytes in the outlet: those that were not read from a pipe, or all that were taken. -/
def held : Outlet → Bytes
  | pipe _ unread => unread
  | sink _ taken | buffer _ taken => taken

def flush : Outlet → Flushed
  | pipe .. | sink .. => .done
  | buffer flushed _ => flushed

def read : Outlet → Bytes × Outlet
  | pipe capacity unread => (unread, pipe capacity [])
  | sink room taken => ([], sink room taken)
  | buffer flushed taken => ([], buffer flushed taken)

end Outlet
end JobBroker
