import JobBroker.Settings.Printer
import JobBroker.Settings.Reader
import JobBroker.Text.Split
/-!
Where settings come from: defaults, then a file, then variables of the environment.
-/
namespace JobBroker.Settings

abbrev Environment := List (String × String)

def Environment.get? (env : Environment) (name : String) : Option String :=
  (env.find? fun v => v.1 == name).map (·.2)

def join (path name : String) : String :=
  if path.isEmpty then name
  else if path.endsWith "/" then path ++ name
  else path ++ "/" ++ name

/-- The path of the settings file: the one that is named outright, or the usual one under the
directory for settings, or under the home directory. -/
def filePath (env : Environment) : String :=
  match env.get? "LOADSTAR_CONFIG" with
  | some path => path
  | none =>
    let base := match env.get? "XDG_CONFIG_HOME" with
      | some dir => dir
      | none => join ((env.get? "HOME").getD "/tmp") ".config"
    join (join base "loadstar") "config.toml"

/-- A variable read as a number up to a limit; one that is no such number is passed over. -/
def override (env : Environment) (name : String) (limit : Nat) (old : Nat) : Nat :=
  ((env.get? name).bind fun v => Decimal.read? limit v.toList).getD old

def overridePort (env : Environment) (name : String) (old : UInt16) : UInt16 :=
  UInt16.ofNat (override env name (UInt16.size - 1) old.toNat)

def overrideWord (env : Environment) (name : String) (old : UInt64) : UInt64 :=
  UInt64.ofNat (override env name Decimal.maxWord old.toNat)

def applyEnvironment (env : Environment) (s : Settings) : Settings :=
  { network :=
      { bindAddr := (env.get? "LOADSTAR_NETWORK__BIND_ADDR").getD s.network.bindAddr
        workerPort := overridePort env "LOADSTAR_NETWORK__WORKER_PORT" s.network.workerPort
        requesterPort :=
          overridePort env "LOADSTAR_NETWORK__REQUESTER_PORT" s.network.requesterPort
        apiPort := overridePort env "LOADSTAR_NETWORK__API_PORT" s.network.apiPort }
    scheduling :=
      { s.scheduling with
        starvationMillis :=
          overrideWord env "LOADSTAR_SCHEDULING__STARVATION_TIMEOUT_MS"
            s.scheduling.starvationMillis }
    protocol :=
      { s.protocol with
        chunkSize := overrideWord env "LOADSTAR_PROTOCOL__CHUNK_SIZE" s.protocol.chunkSize } }

inductive Found where
  | nothing
  | directory
  | file (content : Bytes)

inductive LoadError where
  | readFailed
  | parseFailed
  | invalid (cause : SettingsError)
  deriving DecidableEq, Repr

def ofFile : Found → Except LoadError Settings
  | .nothing => .ok {}
  | .directory => .error .readFailed
  | .file content =>
    match Text.decode? content with
    | none => .error .readFailed
    | some s =>
      match ofToml? s with
      | none => .error .parseFailed
      | some settings => .ok settings

def load (file : Found) (env : Environment) : Except LoadError Settings :=
  match ofFile file with
  | .error e => .error e
  | .ok s =>
    let s := applyEnvironment env s
    match s.validate with
    | .error e => .error (.invalid e)
    | .ok () => .ok s

abbrev Files := List (List String × Bytes)

namespace Files

def parts (path : String) : List String :=
  ((Text.splitOn '/' path.toList).map String.ofList).filter fun p => !p.isEmpty && p != "."

def get? (fs : Files) (path : List String) : Option Bytes :=
  (fs.find? fun f => f.1 == path).map (·.2)

def contains (fs : Files) (path : List String) : Bool := fs.any fun f => path.isPrefixOf f.1

def isBlocked (fs : Files) (path : List String) : Bool :=
  fs.any fun f => f.1.isPrefixOf path && f.1 != path

end Files

/-- Write the defaults to a path, unless something is there; nothing comes of a path on which a
file stands in the way. -/
def writeDefault (fs : Files) (path : List String) : Option Files :=
  if fs.contains path then some fs
  else if fs.isBlocked path then none
  else some ((path, Text.bytes (render {})) :: fs)

end JobBroker.Settings
