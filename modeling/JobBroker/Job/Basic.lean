import JobBroker.Packet.Basic
/-!
Jobs as requesters and workers see them, and the packets that carry them.
-/
namespace JobBroker

inductive JobType where
  | a
  | b
  deriving DecidableEq, Repr

namespace JobType

def name : JobType → String
  | a => "A"
  | b => "B"

def ofName? (s : String) : Option JobType :=
  [a, b].find? fun t => t.name.toList == s.toList.map Char.toUpper

end JobType

inductive JobError where
  | missing (key : Key)
  | invalid (key : Key) (value : String)
  deriving DecidableEq, Repr

def JobError.message : JobError → String
  | missing k => s!"missing {k.name}"
  | invalid k v => s!"invalid {k.name} value {Text.quote v}"

structure Job where
  id : UInt64
  jobType : JobType
  succeeded : Bool := false
  result : Bytes := []
  deriving DecidableEq, Repr

namespace Packet

def required (p : Packet) (k : Key) : Except JobError String :=
  match p.scalar? k with
  | none => .error (.missing k)
  | some s => .ok s

def readRequired (p : Packet) (k : Key) (read? : String → Option α) : Except JobError α :=
  match p.required k with
  | .error e => .error e
  | .ok s =>
    match read? s with
    | none => .error (.invalid k s)
    | some x => .ok x

end Packet

namespace Job

/-- Whether two jobs bear the same number, which is what makes them the same job. -/
def same (j k : Job) : Bool := j.id == k.id

def withOutcome (j : Job) (succeeded : Bool) (result : Bytes) : Job :=
  { j with succeeded := succeeded, result := result }

/-- The job that a requester asks for. The number is examined before the type. -/
def ofRequest (p : Packet) : Except JobError Job :=
  match p.readRequired .jobId Decimal.word? with
  | .error e => .error e
  | .ok id =>
    match p.readRequired .jobType JobType.ofName? with
    | .error e => .error e
    | .ok t => .ok { id := id, jobType := t }

def ofResult (p : Packet) : Except JobError Job :=
  match ofRequest p with
  | .error e => .error e
  | .ok j =>
    match p.readRequired .jobSucceeded readFlag? with
    | .error e => .error e
    | .ok succeeded => .ok (j.withOutcome succeeded p.message)

def requestPacket (j : Job) : Packet :=
  (Packet.set {} .jobId (.ofNat j.id.toNat)).set .jobType (.scalar j.jobType.name)

def resultTemplate (j : Job) : Packet :=
  j.requestPacket.set .jobSucceeded (.ofBool j.succeeded)

end Job

def handshakePacket (specialty : JobType) : Packet :=
  Packet.set {} .optimizedForJobType (.scalar specialty.name)

def readHandshake (p : Packet) : Except JobError JobType :=
  p.readRequired .optimizedForJobType JobType.ofName?

end JobBroker
