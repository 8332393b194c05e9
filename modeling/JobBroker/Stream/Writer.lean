import JobBroker.Message.Split
import JobBroker.Packet.Encode
import JobBroker.Stream.Outlet
/-!
Messages into a stream of bytes. Nothing of a message is written unless all of its packets can
be encoded.
-/
namespace JobBroker

inductive SendError where
  | packet (cause : PacketError)
  | io (cause : String)
  deriving DecidableEq, Repr

def SendError.message : SendError → String
  | packet e => s!"packet encoding failed: {e.message}"
  | io cause => s!"write failed: {cause}"

def messagePackets (template : Packet) (body : Bytes) (chunkSize : Nat) : List Packet :=
  let packets := splitMessage template body chunkSize
  if body.isEmpty then packets else markLast packets

def encodeAll (done : List Bytes) : List Packet → Except PacketError (List Bytes)
  | [] => .ok done.reverse
  | p :: ps =>
    match p.encode with
    | .error e => .error e
    | .ok bytes => encodeAll (bytes :: done) ps

def encodeMessage (template : Packet) (body : Bytes) (chunkSize : Nat) :
    Except PacketError (List Bytes) :=
  encodeAll [] (messagePackets template body chunkSize)

namespace Outlet

/-- Write bytes and flush them. Whoever writes so does not wait: where it would have to, nobody is
left who reads. -/
def put (o : Outlet) (bytes : Bytes) : Except SendError Unit × Outlet :=
  match o.write bytes with
  | (.broken cause, o) => (.error (.io cause), o)
  | (.blocked _, o) => (.error (.io brokenPipe), o)
  | (.all, o) =>
    match o.flush with
    | .done => (.ok (), o)
    | .waiting => (.error (.io brokenPipe), o)
    | .broken cause => (.error (.io cause), o)

def sendRaw (o : Outlet) (bytes : Bytes) : Except SendError Unit × Outlet := o.put bytes

def sendPacket (o : Outlet) (p : Packet) : Except SendError Unit × Outlet :=
  match p.encode with
  | .error e => (.error (.packet e), o)
  | .ok bytes => o.sendRaw bytes

def sendMessage (o : Outlet) (template : Packet) (body : Bytes) (chunkSize : Nat) :
    Except SendError Nat × Outlet :=
  match encodeMessage template body chunkSize with
  | .error e => (.error (.packet e), o)
  | .ok pieces =>
    match o.put pieces.flatten with
    | (.error e, o) => (.error e, o)
    | (.ok (), o) => (.ok pieces.length, o)

end Outlet
end JobBroker
