import JobBroker.Message.Split
/-!
One message rebuilt from its packets in any order. The first packet with a place fixes the
number of slots. A slot once filled stays as it is, and a place outside the slots is ignored,
but the sender's mark is always that of the latest packet.
-/
namespace JobBroker

/-- A message in the course of being rebuilt. -/
structure Reassembly where
  /-- The arguments of every accepted packet, without place and number. -/
  args : Packet := {}
  slots : Array (Option Bytes) := #[]
  /-- The places of the empty slots, in ascending order. -/
  missing : List Nat := []
  /-- Whether the slots have been fixed. -/
  sequenced : Bool := false
  /-- The latest message of a packet without a place. -/
  unsequenced : Bytes := []
  deriving DecidableEq, Repr

namespace Reassembly

def total (r : Reassembly) : Nat := r.slots.size

def received (r : Reassembly) : Nat := r.total - r.missing.length

def isComplete (r : Reassembly) : Bool := r.missing.isEmpty

def senderCompleted (r : Reassembly) : Bool := r.args.completed? == some true

def noteCompleted (r : Reassembly) (p : Packet) : Reassembly :=
  match p.scalar? .completed with
  | none => r
  | some flag => { r with args := r.args.set .completed (.scalar flag) }

def merge (r : Reassembly) (p : Packet) : Reassembly :=
  { r with args := r.args.mergeArgs ((p.erase .sequenceNum).erase .totalPackets) }

def addUnsequenced (r : Reassembly) (p : Packet) : Reassembly :=
  let r := r.merge p
  if p.hasMessage then { r with unsequenced := p.message } else r

def fixSlots (r : Reassembly) (p : Packet) : Except PacketError Reassembly :=
  if r.sequenced then .ok r
  else
    match p.number .totalPackets with
    | .error e => .error e
    | .ok declared =>
      let total := (declared.getD 0).toNat
      if total = 0 ∨ maxMessagePackets < total then
        .error (.invalidValue .totalPackets ((p.scalar? .totalPackets).getD ""))
      else
        .ok { r with
          slots := Array.replicate total none
          missing := List.range total
          sequenced := true }

def fill (r : Reassembly) (seq : Nat) (p : Packet) : Reassembly :=
  match r.slots[seq]? with
  | some none =>
    { r with
      slots := r.slots.setIfInBounds seq (some p.message)
      missing := r.missing.erase seq }.merge p
  | _ => r

/-- Add a packet. A refused packet may still have left its mark. -/
def add (r : Reassembly) (p : Packet) : Reassembly × Except PacketError Unit :=
  let r := r.noteCompleted p
  match p.number .sequenceNum with
  | .error e => (r, .error e)
  | .ok none => (r.addUnsequenced p, .ok ())
  | .ok (some seq) =>
    match r.fixSlots p with
    | .error e => (r, .error e)
    | .ok r => (r.fill seq.toNat p, .ok ())

def addAll (r : Reassembly) : List Packet → Reassembly × Except PacketError Unit
  | [] => (r, .ok ())
  | p :: ps =>
    match r.add p with
    | (r, .error e) => (r, .error e)
    | (r, .ok ()) => r.addAll ps

/-- Whether a packet can be one of this message: it declares no other number of packets, and no
other job. -/
def belongs (r : Reassembly) (p : Packet) : Bool :=
  if r.sequenced then
    let sameTotal :=
      match p.number .totalPackets with
      | .ok (some total) => total.toNat == r.total
      | _ => true
    let sameJob :=
      match r.args.scalar? .jobId, p.scalar? .jobId with
      | some ours, some theirs => ours == theirs
      | _, _ => true
    sameTotal && sameJob
  else
    true

def abandoned (r : Reassembly) : PacketError := .incompleteMessage r.missing.length r.total

def arrived (r : Reassembly) : Bytes :=
  if r.sequenced then (r.slots.toList.filterMap id).flatten else r.unsequenced

/-- The message, unless only a complete one is wanted and slots are empty. -/
def fullMessage (r : Reassembly) (onlyIfComplete : Bool) : Option Bytes :=
  if onlyIfComplete && !r.isComplete then none else some r.arrived

def missingReport (r : Reassembly) : Packet :=
  (Packet.set {} .totalPacketsMissing (.ofNat r.missing.length)).set
    .missingPacketNums (.ofNats r.missing)

def toPacket (r : Reassembly) : Packet := r.args.withMessage r.arrived

/-- How much has arrived, in percent; a message without slots is complete. -/
def percentComplete (r : Reassembly) : Float :=
  if r.total = 0 then 100.0 else 100.0 * r.received.toFloat / r.total.toFloat

end Reassembly
end JobBroker
