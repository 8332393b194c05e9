import JobBroker.Job.Basic
import JobBroker.Message.Split
/-!
The settings of a broker, and what makes them usable.
-/
namespace JobBroker

/-- Where the broker listens. Port zero asks for any free port. -/
structure Network where
  bindAddr : String := "0.0.0.0"
  workerPort : UInt16 := 30000
  requesterPort : UInt16 := 30001
  apiPort : UInt16 := 30080
  deriving DecidableEq, Repr

structure Scheduling where
  /-- The time of a job that suits its worker. -/
  fast : UInt64 := 2
  /-- The time of a job that does not. -/
  slow : UInt64 := 10
  retryMillis : UInt64 := 500
  /-- How long a job may wait for a worker; zero for ever. -/
  starvationMillis : UInt64 := 30000
  deriving DecidableEq, Repr

structure Protocol where
  chunkSize : UInt64 := UInt64.ofNat defaultChunkSize
  handshakeMillis : UInt64 := 5000
  deriving DecidableEq, Repr

structure Settings where
  network : Network := {}
  scheduling : Scheduling := {}
  protocol : Protocol := {}
  deriving DecidableEq, Repr

namespace Scheduling

def serviceTime (s : Scheduling) (specialty jobType : JobType) : UInt64 :=
  if specialty = jobType then s.fast else s.slow

def starvation? (s : Scheduling) : Option Nat :=
  if s.starvationMillis = 0 then none else some s.starvationMillis.toNat

end Scheduling

inductive SettingsError where
  | portConflict (port : UInt16)
  | emptyChunks
  | fastExceedsSlow (fast slow : UInt64)
  deriving DecidableEq, Repr

def SettingsError.message : SettingsError → String
  | portConflict p => s!"worker and requester listeners share port {Decimal.write p.toNat}"
  | emptyChunks => "invalid setting protocol.chunk_size: must be greater than zero"
  | fastExceedsSlow f s =>
    s!"invalid setting scheduling.fast_service_time: {Decimal.write f.toNat} exceeds " ++
      s!"slow_service_time {Decimal.write s.toNat}"

/-- Examine the ports, then the chunk size, then the service times. -/
def Settings.validate (s : Settings) : Except SettingsError Unit :=
  if s.network.workerPort ≠ 0 ∧ s.network.workerPort = s.network.requesterPort then
    .error (.portConflict s.network.workerPort)
  else if s.protocol.chunkSize = 0 then .error .emptyChunks
  else if s.scheduling.slow < s.scheduling.fast then
    .error (.fastExceedsSlow s.scheduling.fast s.scheduling.slow)
  else .ok ()

end JobBroker
