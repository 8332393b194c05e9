import JobBroker.Packet.Basic
/-!
Messages longer than a chunk travel as consecutive packets. Each carries the arguments of the
message, its own place and the number of packets; which one is sent last is marked separately.
-/
namespace JobBroker

def defaultChunkSize : Nat := 100

/-- The most packets that one message may have. -/
def maxMessagePackets : Nat := 1 <<< 16

/-- Cut bytes into pieces of `size`, the last one possibly shorter, after the pieces `done`,
which are held newest first. -/
def chunksFrom (size : Nat) (h : 0 < size) (done : List Bytes) : Bytes → List Bytes
  | [] => done.reverse
  | b :: bs => chunksFrom size h ((b :: bs).take size :: done) ((b :: bs).drop size)
termination_by bs => bs.length
decreasing_by
  simp only [List.length_drop, List.length_cons]
  omega

/-- Cut bytes into pieces of `size`. A size of zero counts as one. -/
def chunks (size : Nat) (bs : Bytes) : List Bytes :=
  chunksFrom (max size 1) (Nat.le_max_right size 1) [] bs

namespace Packet

def ofChunk (template : Packet) (total seq : Nat) (chunk : Bytes) : Packet :=
  (((template.setCompleted false).set .totalPackets (.ofNat total)).set
    .sequenceNum (.ofNat seq)).withMessage chunk

end Packet

def splitMessage (template : Packet) (message : Bytes) (chunkSize : Nat) : List Packet :=
  if message.isEmpty then [template.withMessage []]
  else
    let pieces := chunks chunkSize message
    let total := pieces.length
    pieces.mapIdx fun seq chunk => template.ofChunk total seq chunk

def markLast (packets : List Packet) : List Packet :=
  match packets.getLast? with
  | none => []
  | some last => packets.dropLast ++ [last.setCompleted true]

end JobBroker
