import JobBroker.Job.Basic
import JobBroker.Text.Quoted
/-!
The options of the control program. They may stand anywhere among the words of a command, the
last of several counts, and the first fault from the left is reported.
-/
namespace JobBroker.Control

structure Options where
  apiPort : UInt16 := 30080
  host : String := "127.0.0.1"
  /-- The port to connect to, if it is not the usual one of the command. -/
  port : Option UInt16 := none
  jobType : JobType := .a
  count : UInt64 := 1
  firstId : UInt64 := 0
  fastMillis : UInt64 := 200
  slowMillis : UInt64 := 1000
  deriving DecidableEq, Repr

inductive UsageError where
  | missingValue (option : String)
  | notANumber (option : String)
  | notAJobType (value : String)
  deriving DecidableEq, Repr

def UsageError.message : UsageError → String
  | missingValue option => s!"{option} requires a value"
  | notANumber option => s!"{option} must be a number"
  | notAJobType value => s!"--type must be A or B, got {Text.quote value}"

inductive Setting where
  | apiPort
  | host
  | port
  | jobType
  | count
  | firstId
  | fastMillis
  | slowMillis
  deriving DecidableEq, Repr

namespace Setting

def all : List Setting :=
  [apiPort, host, port, jobType, count, firstId, fastMillis, slowMillis]

def option : Setting → String
  | apiPort => "--api-port"
  | host => "--host"
  | port => "--port"
  | jobType => "--type"
  | count => "--count"
  | firstId => "--first-id"
  | fastMillis => "--fast-ms"
  | slowMillis => "--slow-ms"

def ofOption? (word : String) : Option Setting := all.find? fun s => s.option == word

def readPort (s : Setting) (value : String) : Except UsageError UInt16 :=
  match Decimal.read? (UInt16.size - 1) value.toList with
  | none => .error (.notANumber s.option)
  | some n => .ok (UInt16.ofNat n)

def readWord (s : Setting) (value : String) : Except UsageError UInt64 :=
  match Decimal.word? value with
  | none => .error (.notANumber s.option)
  | some n => .ok n

def readType (value : String) : Except UsageError JobType :=
  match JobType.ofName? value with
  | none => .error (.notAJobType value)
  | some t => .ok t

def apply (s : Setting) (value : String) (o : Options) : Except UsageError Options :=
  match s with
  | apiPort => (s.readPort value).map fun p => { o with apiPort := p }
  | host => .ok { o with host := value }
  | port => (s.readPort value).map fun p => { o with port := some p }
  | jobType => (readType value).map fun t => { o with jobType := t }
  | count => (s.readWord value).map fun n => { o with count := n }
  | firstId => (s.readWord value).map fun n => { o with firstId := n }
  | fastMillis => (s.readWord value).map fun n => { o with fastMillis := n }
  | slowMillis => (s.readWord value).map fun n => { o with slowMillis := n }

end Setting

namespace Options

/-- Read arguments from the left. The words that belong to no option come newest first. -/
def readFrom (o : Options) (words : List String) :
    List String → Except UsageError (Options × List String)
  | [] => .ok (o, words.reverse)
  | arg :: rest =>
    match Setting.ofOption? arg with
    | none => readFrom o (arg :: words) rest
    | some s =>
      match rest with
      | [] => .error (.missingValue arg)
      | value :: rest =>
        match s.apply value o with
        | .error e => .error e
        | .ok o => readFrom o words rest

def read (args : List String) : Except UsageError (Options × List String) := readFrom {} [] args

end Options
end JobBroker.Control
