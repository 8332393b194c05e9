import JobBroker.Message.Reassembly
import JobBroker.Packet.Decoder
/-!
The packets of one connection turned into messages. A packet without a place is a message; the
others accumulate until their slots are full. Messages are not interleaved: a packet of another
message, or the sender's last packet, abandons a message that still lacks packets.
-/
namespace JobBroker

structure Assembler where
  pending : Option Reassembly := none
  /-- What the packet yielded by which the latest message was abandoned. -/
  deferred : Option Decoded := none

namespace Assembler

def inProgress (a : Assembler) : Bool := a.pending.isSome

def addSequenced (a : Assembler) (p : Packet) : Assembler × Option Decoded :=
  match (a.pending.getD {}).add p with
  | (_, .error e) => ({ a with pending := none }, some (.error e))
  | (r, .ok ()) =>
    if r.isComplete then ({ a with pending := none }, some (.ok r.toPacket))
    else if r.senderCompleted then ({ a with pending := none }, some (.error r.abandoned))
    else ({ a with pending := some r }, none)

/-- Accept one packet. What it yields beside abandoning a message is deferred. -/
def accept (a : Assembler) (p : Packet) : Assembler × Option Decoded :=
  if !p.contains .sequenceNum then (a, some (.ok p))
  else
    match a.pending with
    | none => a.addSequenced p
    | some r =>
      if r.belongs p then a.addSequenced p
      else
        let (a, outcome) := { a with pending := none }.addSequenced p
        ({ a with deferred := outcome }, some (.error r.abandoned))

def takeDeferred (a : Assembler) : Assembler × Option Decoded :=
  ({ a with deferred := none }, a.deferred)

end Assembler
end JobBroker
