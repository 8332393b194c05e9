import JobBroker.Proofs.Packet.Closing

/-! The decoder as it lies in memory. It has one buffer for headers and one for messages. Both are
cleared when a body begins and given up with a packet that is complete, but what a refused body has
left stays in them until the next one. The bytes of a key are not kept apart: where the open item
begins is marked in the header buffer. What is left of a body is counted down by plain subtraction.
Here the sums, differences and cuts are checked, so that a byte is taken only if none of them
fails. -/
namespace JobBroker

inductive HeaderPlace where
  | keyStart
  | key
  | value (empty : Bool)
  | array
  | arrayEnd
  deriving DecidableEq, Repr

namespace HeaderPlace

def ofLex : Lex → HeaderPlace
  | .keyStart => keyStart
  | .key _ => key
  | .value empty => value empty
  | .array => array
  | .arrayEnd => arrayEnd

def lex (item : Bytes) : HeaderPlace → Lex
  | keyStart => .keyStart
  | key => .key item.reverse
  | value empty => .value empty
  | array => .array
  | arrayEnd => .arrayEnd

def mayEnd (header : Bytes) (place : HeaderPlace) : Bool := (place.lex []).mayEnd header

theorem mayEnd_lex (item header : Bytes) (place : HeaderPlace) :
    (place.lex item).mayEnd header.reverse = place.mayEnd header := by
  cases place with
  | keyStart => exact List.isEmpty_reverse
  | key | value | array | arrayEnd => rfl

end HeaderPlace

namespace BufferedDecoder

inductive Phase where
  /-- Before an opening parenthesis. -/
  | start
  | length (value digits : Nat)
  | header (remaining : Nat) (place : HeaderPlace)
  | message (remaining : Nat)
  /-- Inside a body that was refused. -/
  | skip (remaining : Nat)
  /-- Looking for the next opening parenthesis. -/
  | resync
  deriving DecidableEq, Repr

def Phase.inBody : Phase → Bool
  | header .. | message _ | skip _ => true
  | start | length .. | resync => false

def Phase.refused (remaining : Nat) : Phase := if remaining = 0 then start else skip remaining

end BufferedDecoder

/-- The decoder between two bytes with its buffers, first byte first. -/
structure BufferedDecoder where
  phase : BufferedDecoder.Phase := .start
  header : Bytes := []
  /-- Where in the header buffer the open item begins. -/
  keyStart : Nat := 0
  message : Bytes := []
  deriving DecidableEq, Repr

namespace BufferedDecoder

/-- A number, if it fits in a word of 32 bits. No machine has words that are narrower. -/
def fits? (n : Nat) : Option Nat := if n < UInt32.size then some n else none

def minus? (m n : Nat) : Option Nat := if n ≤ m then some (m - n) else none

def from? (bytes : Bytes) (place : Nat) : Option Bytes :=
  if place ≤ bytes.length then some (bytes.drop place) else none

def goTo (m : BufferedDecoder) (phase : Phase) : BufferedDecoder := { m with phase := phase }

def refuse (m : BufferedDecoder) (remaining : Nat) (e : PacketError) :
    BufferedDecoder × Option Decoded :=
  (m.goTo (.refused remaining), some (.error e))

def finish (m : BufferedDecoder) : BufferedDecoder × Option Decoded :=
  match Decoder.finish m.header.reverse m.message.reverse with
  | .error e => (m.goTo .start, some (.error e))
  | .ok p => ({ m with phase := .start, header := [], message := [] }, some (.ok p))

def pushLength? (m : BufferedDecoder) (value digits : Nat) (b : UInt8) :
    Option (BufferedDecoder × Option Decoded) :=
  if 48 ≤ b && b ≤ 57 then
    (fits? (value * 10 + (b.toNat - 48))).map fun value =>
      if Decoder.maxLengthDigits < digits + 1 ∨ maxBody < value then
        (m.goTo .resync, some (.error (.tooLarge value)))
      else
        (m.goTo (.length value (digits + 1)), none)
  else if b == 41 then
    if digits = 0 then some (m.goTo .start, some (.error .emptyLength))
    else if value = 0 then some (m.goTo .start, some (.error .emptyBody))
    else some ({ phase := .header value .keyStart }, none)
  else
    some (m.goTo .resync, some (.error (.badLength b)))

def withHeaderByte (m : BufferedDecoder) (b : UInt8) (place : HeaderPlace) : BufferedDecoder :=
  { m with
    header := m.header ++ [b]
    keyStart := if place = .keyStart then m.header.length + 1 else m.keyStart }

/-- Take a byte of the header, after which `remaining` bytes of the body are to come. The item is
cut out of the buffer at every byte, though only the colon behind a key asks for it. -/
def pushHeader? (m : BufferedDecoder) (remaining : Nat) (place : HeaderPlace) (b : UInt8) :
    Option (BufferedDecoder × Option Decoded) :=
  if b == 10 then
    if place.mayEnd m.header then
      if remaining = 0 then some m.finish else some (m.goTo (.message remaining), none)
    else
      some (m.refuse remaining (.headerSyntax b))
  else
    (from? m.header m.keyStart).map fun item =>
      match (place.lex item).step b with
      | .error e => m.refuse remaining e
      | .ok next =>
        let m := m.withHeaderByte b (.ofLex next)
        if remaining = 0 then m.refuse 0 .unterminatedHeader
        else (m.goTo (.header remaining (.ofLex next)), none)

def push? (m : BufferedDecoder) (b : UInt8) : Option (BufferedDecoder × Option Decoded) :=
  match m.phase with
  | .start =>
    some (if b == 40 then (m.goTo (.length 0 0), none)
      else (m.goTo .resync, some (.error (.badOpening b))))
  | .resync => some (if b == 40 then m.goTo (.length 0 0) else m, none)
  | .length value digits => m.pushLength? value digits b
  | .header remaining place =>
    (minus? remaining 1).bind fun remaining => m.pushHeader? remaining place b
  | .message remaining =>
    let m := { m with message := m.message ++ [b] }
    if remaining = 1 then some m.finish
    else (minus? remaining 1).map fun remaining => (m.goTo (.message remaining), none)
  | .skip remaining =>
    if remaining = 1 then some (m.goTo .start, none)
    else (minus? remaining 1).map fun remaining => (m.goTo (.skip remaining), none)

def feed? (m : BufferedDecoder) : Bytes → Option (BufferedDecoder × List Decoded)
  | [] => some (m, [])
  | b :: bytes =>
    (m.push? b).bind fun (next, outcome) =>
      (next.feed? bytes).map fun (last, later) => (last, outcome.toList ++ later)

def plain (m : BufferedDecoder) : Decoder :=
  match m.phase with
  | .start => .start
  | .length value digits => .length value digits
  | .header remaining place =>
    .header remaining (place.lex (m.header.drop m.keyStart)) m.header.reverse
  | .message remaining => .message remaining m.header.reverse m.message.reverse
  | .skip remaining => .skip remaining
  | .resync => .resync

end BufferedDecoder

end JobBroker
