import JobBroker.Job.Tracked
import JobBroker.Stream.Reader
/-!
The first message of a worker, which names its specialty.
-/
namespace JobBroker

inductive HandshakeError where
  | timeout (limit : Millis)
  | closed
  | malformed (cause : PacketError)
  | invalid (cause : JobError)
  | failed (cause : String)
  deriving DecidableEq, Repr

namespace HandshakeError

def thousandths (n : Nat) : List Char :=
  let ds := Decimal.digits n
  let padded := List.replicate (3 - ds.length) '0' ++ ds
  (padded.reverse.dropWhile (· == '0')).reverse

def span (n : Millis) : String :=
  if n = 0 then "0ns"
  else if n < 1000 then s!"{Decimal.write n}ms"
  else
    let part := thousandths (n % 1000)
    let point := if part.isEmpty then "" else "."
    s!"{Decimal.write (n / 1000)}{point}{String.ofList part}s"

def message : HandshakeError → String
  | timeout limit => s!"no handshake within {span limit}"
  | closed => "connection closed before handshake"
  | malformed e => s!"malformed handshake: {e.message}"
  | invalid e => s!"invalid handshake: {e.message}"
  | failed cause => s!"read failed: {cause}"

end HandshakeError

def specialtyOf : Inbound → Except HandshakeError JobType
  | .message p =>
    match readHandshake p with
    | .ok t => .ok t
    | .error e => .error (.invalid e)
  | .malformed e => .error (.malformed e)
  | .closed => .error .closed

/-- Take one item from a worker's stream, after the reads that arrive within the limit. What is
behind it stays with the reader. -/
def awaitHandshake (limit : Millis) (ending : Ending) (r : StreamReader) (reads : List Bytes) :
    Except HandshakeError JobType × StreamReader × List Bytes :=
  match r.next ending reads with
  | (.item item, r, reads) => (specialtyOf item, r, reads)
  | (.failed cause, r, reads) => (.error (.failed cause), r, reads)
  | (.waiting, r, reads) => (.error (.timeout limit), r, reads)

end JobBroker
