import JobBroker.Settings.Basic
import JobBroker.Toml.Document
/-!
Settings read from a TOML document. A section is a table, or an array of its fields in order.
What is missing keeps its default, what is unknown or surplus is ignored, and a value of another
type or out of range refuses the document.
-/
namespace JobBroker.Settings

inductive Fields where
  | named (entries : Toml.Entries)
  | ordered (values : List Toml.Value)

/-- The fields that a value holds. A date has no field that a section knows. -/
def Fields.ofValue? : Toml.Value → Option Fields
  | .table _ entries => some (.named entries)
  | .array values => some (.ordered values)
  | .tables all => some (.ordered (all.reverse.map (.table .opened)))
  | .date => some (.named [])
  | _ => none

def Fields.get? : Fields → String → Nat → Option Toml.Value
  | .named entries, name, _ => entries.get? name
  | .ordered values, _, place => values[place]?

def field (fs : Fields) (name : String) (place : Nat) (default : α)
    (read : Toml.Value → Option α) : Option α :=
  match fs.get? name place with
  | none => some default
  | some v => read v

def text? : Toml.Value → Option String
  | .string s => some s
  | _ => none

def number? (limit : Nat) : Toml.Value → Option Nat
  | .integer n => if 0 ≤ n ∧ n ≤ limit then some n.toNat else none
  | _ => none

def port? (v : Toml.Value) : Option UInt16 := (number? (UInt16.size - 1) v).map UInt16.ofNat

def word? (v : Toml.Value) : Option UInt64 := (number? Decimal.maxWord v).map UInt64.ofNat

def network? (v : Toml.Value) : Option Network := do
  let fs ← Fields.ofValue? v
  let d : Network := {}
  let bindAddr ← field fs "bind_addr" 0 d.bindAddr text?
  let workerPort ← field fs "worker_port" 1 d.workerPort port?
  let requesterPort ← field fs "requester_port" 2 d.requesterPort port?
  let apiPort ← field fs "api_port" 3 d.apiPort port?
  some ⟨bindAddr, workerPort, requesterPort, apiPort⟩

def scheduling? (v : Toml.Value) : Option Scheduling := do
  let fs ← Fields.ofValue? v
  let d : Scheduling := {}
  let fast ← field fs "fast_service_time" 0 d.fast word?
  let slow ← field fs "slow_service_time" 1 d.slow word?
  let retry ← field fs "retry_interval_ms" 2 d.retryMillis word?
  let starvation ← field fs "starvation_timeout_ms" 3 d.starvationMillis word?
  some ⟨fast, slow, retry, starvation⟩

def protocol? (v : Toml.Value) : Option Protocol := do
  let fs ← Fields.ofValue? v
  let d : Protocol := {}
  let chunkSize ← field fs "chunk_size" 0 d.chunkSize word?
  let handshake ← field fs "handshake_timeout_ms" 1 d.handshakeMillis word?
  some ⟨chunkSize, handshake⟩

def ofToml? (s : String) : Option Settings := do
  let fs := Fields.named (← Toml.parse s)
  let network ← field fs "network" 0 {} network?
  let scheduling ← field fs "scheduling" 1 {} scheduling?
  let protocol ← field fs "protocol" 2 {} protocol?
  some ⟨network, scheduling, protocol⟩

end JobBroker.Settings
