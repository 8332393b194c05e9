/-!
The fixed vocabulary of packet arguments. Names are compared without regard to ASCII case.
-/
namespace JobBroker

/-- An argument that a packet may carry, in the order of encoding. -/
inductive Key where
  | requestType
  | completed
  | totalPackets
  | sequenceNum
  | totalPacketsMissing
  | missingPacketNums
  | optimizedForJobType
  | jobType
  | jobId
  | jobSucceeded
  deriving DecidableEq, Repr

namespace Key

def all : List Key :=
  [requestType, completed, totalPackets, sequenceNum, totalPacketsMissing, missingPacketNums,
    optimizedForJobType, jobType, jobId, jobSucceeded]

def name : Key → String
  | requestType => "REQUEST_TYPE"
  | completed => "COMPLETED"
  | totalPackets => "TOTAL_PACKETS"
  | sequenceNum => "SEQUENCE_NUM"
  | totalPacketsMissing => "TOTAL_PACKETS_MISSING"
  | missingPacketNums => "MISSING_PACKET_NUMS"
  | optimizedForJobType => "OPTIMIZED_FOR_JOB_TYPE"
  | jobType => "JOB_TYPE"
  | jobId => "JOB_ID"
  | jobSucceeded => "JOB_SUCCEEDED"

def ofToken? (token : List Char) : Option Key :=
  all.find? fun k => k.name.toList == token.map Char.toUpper

end Key
end JobBroker
