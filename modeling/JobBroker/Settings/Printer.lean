import JobBroker.Settings.Basic
/-!
The settings written as a document, as a broker that finds none leaves it.
-/
namespace JobBroker.Settings

def numberLine (key : String) (n : Nat) : String := s!"{key} = {Decimal.write n}\n"

def render (s : Settings) : String :=
  String.join
    [ "[network]\n",
      s!"bind_addr = {Text.quote s.network.bindAddr}\n",
      numberLine "worker_port" s.network.workerPort.toNat,
      numberLine "requester_port" s.network.requesterPort.toNat,
      numberLine "api_port" s.network.apiPort.toNat,
      "\n[scheduling]\n",
      numberLine "fast_service_time" s.scheduling.fast.toNat,
      numberLine "slow_service_time" s.scheduling.slow.toNat,
      numberLine "retry_interval_ms" s.scheduling.retryMillis.toNat,
      numberLine "starvation_timeout_ms" s.scheduling.starvationMillis.toNat,
      "\n[protocol]\n",
      numberLine "chunk_size" s.protocol.chunkSize.toNat,
      numberLine "handshake_timeout_ms" s.protocol.handshakeMillis.toNat ]

end JobBroker.Settings
