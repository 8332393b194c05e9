import JobBroker.Packet.Error
/-!
Packets: at most one value for each key of the vocabulary, and a message. An empty message and
no message are the same thing.
-/
namespace JobBroker

inductive Value where
  | scalar (text : String)
  | array (elements : List String)
  deriving DecidableEq, Repr

namespace Value

def scalar? : Value → Option String
  | scalar s => some s
  | array _ => none

def array? : Value → Option (List String)
  | array es => some es
  | scalar _ => none

def ofNat (n : Nat) : Value := scalar (Decimal.write n)

def ofBool (b : Bool) : Value := scalar (if b then "TRUE" else "FALSE")

def ofNats (ns : List Nat) : Value := array (ns.map Decimal.write)

end Value

def readFlag? (s : String) : Option Bool :=
  let token := s.toList.map Char.toUpper
  if token = ['T'] ∨ token = "TRUE".toList then some true
  else if token = ['F'] ∨ token = "FALSE".toList then some false
  else none

/-- The arguments of a packet, one optional value for each key. -/
structure Arguments where
  requestType : Option Value := none
  completed : Option Value := none
  totalPackets : Option Value := none
  sequenceNum : Option Value := none
  totalPacketsMissing : Option Value := none
  missingPacketNums : Option Value := none
  optimizedForJobType : Option Value := none
  jobType : Option Value := none
  jobId : Option Value := none
  jobSucceeded : Option Value := none
  deriving DecidableEq, Repr

namespace Arguments

def get? (a : Arguments) : Key → Option Value
  | .requestType => a.requestType
  | .completed => a.completed
  | .totalPackets => a.totalPackets
  | .sequenceNum => a.sequenceNum
  | .totalPacketsMissing => a.totalPacketsMissing
  | .missingPacketNums => a.missingPacketNums
  | .optimizedForJobType => a.optimizedForJobType
  | .jobType => a.jobType
  | .jobId => a.jobId
  | .jobSucceeded => a.jobSucceeded

def put (a : Arguments) (k : Key) (v : Option Value) : Arguments :=
  match k with
  | .requestType => { a with requestType := v }
  | .completed => { a with completed := v }
  | .totalPackets => { a with totalPackets := v }
  | .sequenceNum => { a with sequenceNum := v }
  | .totalPacketsMissing => { a with totalPacketsMissing := v }
  | .missingPacketNums => { a with missingPacketNums := v }
  | .optimizedForJobType => { a with optimizedForJobType := v }
  | .jobType => { a with jobType := v }
  | .jobId => { a with jobId := v }
  | .jobSucceeded => { a with jobSucceeded := v }

@[simp] theorem get?_put (a : Arguments) (k l : Key) (v : Option Value) :
    (a.put k v).get? l = if l = k then v else a.get? l := by
  cases k <;> cases l <;> rfl

def toList (a : Arguments) : List (Key × Value) :=
  Key.all.filterMap fun k => (a.get? k).map fun v => (k, v)

/-- Every value of `b`, and those of `a` where `b` has none. -/
def merge (a b : Arguments) : Arguments :=
  b.toList.foldl (fun acc kv => acc.put kv.1 (some kv.2)) a

end Arguments

structure Packet where
  args : Arguments := {}
  message : Bytes := []
  deriving DecidableEq, Repr

namespace Packet

def get? (p : Packet) (k : Key) : Option Value := p.args.get? k

def set (p : Packet) (k : Key) (v : Value) : Packet := { p with args := p.args.put k (some v) }

def erase (p : Packet) (k : Key) : Packet := { p with args := p.args.put k none }

def withMessage (p : Packet) (m : Bytes) : Packet := { p with message := m }

def scalar? (p : Packet) (k : Key) : Option String := (p.get? k).bind Value.scalar?

def array? (p : Packet) (k : Key) : Option (List String) := (p.get? k).bind Value.array?

def contains (p : Packet) (k : Key) : Bool := (p.get? k).isSome

def hasMessage (p : Packet) : Bool := !p.message.isEmpty

def setCompleted (p : Packet) (b : Bool) : Packet :=
  p.set .completed (.scalar (if b then "T" else "F"))

def completed? (p : Packet) : Option Bool := (p.scalar? .completed).bind readFlag?

def number (p : Packet) (k : Key) : Except PacketError (Option UInt64) :=
  match p.scalar? k with
  | none => .ok none
  | some s =>
    match Decimal.word? s with
    | some n => .ok (some n)
    | none => .error (.invalidValue k s)

def mergeArgs (p q : Packet) : Packet := { p with args := p.args.merge q.args }

end Packet
end JobBroker
