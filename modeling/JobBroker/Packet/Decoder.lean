import JobBroker.Packet.Header
import JobBroker.Text.Uppercase
/-!
The incremental decoder. It takes one byte at a time and reports a fault at the first byte that
shows it. After a fault inside a body the rest of the declared body is skipped; after a fault in
front of it everything up to the next opening parenthesis is.
-/
namespace JobBroker

/-- Where in a header the next byte falls. -/
inductive Lex where
  | keyStart
  /-- Inside a key, with its bytes, newest first. -/
  | key (token : Bytes)
  | value (empty : Bool)
  | array
  | arrayEnd
  deriving DecidableEq, Repr

namespace Lex

def isTokenByte (b : UInt8) : Bool :=
  !(b == 44 || b == 58 || b == 91 || b == 93 || b == 40 || b == 41 || b == 10)

def keyOfBytes? (token : Bytes) : Option Key :=
  (Text.decode? token).bind fun s => Key.ofToken? s.toList

def faultToken (token : Bytes) : String := String.ofList (Text.upper (Text.decodeLossy token))

def step (b : UInt8) : Lex → Except PacketError Lex
  | keyStart => if isTokenByte b then .ok (key [b]) else .error (.headerSyntax b)
  | key token =>
    if b == 58 then
      match keyOfBytes? token.reverse with
      | some _ => .ok (value true)
      | none => .error (.unknownKey (faultToken token.reverse))
    else if isTokenByte b then .ok (key (b :: token))
    else .error (.headerSyntax b)
  | value empty =>
    if b == 44 then .ok keyStart
    else if empty && b == 91 then .ok array
    else if isTokenByte b then .ok (value false)
    else .error (.headerSyntax b)
  | array =>
    if b == 93 then .ok arrayEnd
    else if b == 44 || isTokenByte b then .ok array
    else .error (.headerSyntax b)
  | arrayEnd => if b == 44 then .ok keyStart else .error (.headerSyntax b)

def mayEnd (text : Bytes) : Lex → Bool
  | keyStart => text.isEmpty
  | value _ | arrayEnd => true
  | key _ | array => false

end Lex

/-- The decoder between two bytes. The bytes of `text` and `body` are held newest first, and
`remaining` counts what is left of the declared body. -/
inductive Decoder where
  /-- Before an opening parenthesis. -/
  | start
  | length (value digits : Nat)
  | header (remaining : Nat) (lex : Lex) (text : Bytes)
  | message (remaining : Nat) (text body : Bytes)
  /-- Inside a body that was refused. -/
  | skip (remaining : Nat)
  /-- Looking for the next opening parenthesis. -/
  | resync
  deriving DecidableEq, Repr

abbrev Decoded := Except PacketError Packet

namespace Decoder

def maxLengthDigits : Nat := 7

def inPacket : Decoder → Bool
  | length .. | header .. | message .. => true
  | start | skip _ | resync => false

def refused (remaining : Nat) : Decoder := if remaining = 0 then start else skip remaining

def finish (text body : Bytes) : Decoded :=
  match Text.decode? text.reverse with
  | none => .error .invalidUtf8
  | some s =>
    match Header.parse (s.toList.map Char.toUpper) with
    | .error e => .error e
    | .ok args => .ok { args := args, message := body.reverse }

def pushLength (value digits : Nat) (b : UInt8) : Decoder × Option Decoded :=
  if 48 ≤ b && b ≤ 57 then
    let value := value * 10 + (b.toNat - 48)
    if maxLengthDigits < digits + 1 ∨ maxBody < value then
      (resync, some (.error (.tooLarge value)))
    else
      (length value (digits + 1), none)
  else if b == 41 then
    if digits = 0 then (start, some (.error .emptyLength))
    else if value = 0 then (start, some (.error .emptyBody))
    else (header value .keyStart [], none)
  else
    (resync, some (.error (.badLength b)))

def pushHeader (remaining : Nat) (lex : Lex) (text : Bytes) (b : UInt8) :
    Decoder × Option Decoded :=
  if b == 10 then
    if lex.mayEnd text then
      if remaining = 0 then (start, some (finish text []))
      else (message remaining text [], none)
    else
      (refused remaining, some (.error (.headerSyntax b)))
  else
    match lex.step b with
    | .error e => (refused remaining, some (.error e))
    | .ok next =>
      if remaining = 0 then (start, some (.error .unterminatedHeader))
      else (header remaining next (b :: text), none)

def push (d : Decoder) (b : UInt8) : Decoder × Option Decoded :=
  match d with
  | start => if b == 40 then (length 0 0, none) else (resync, some (.error (.badOpening b)))
  | resync => (if b == 40 then length 0 0 else resync, none)
  | length value digits => pushLength value digits b
  | header remaining lex text => pushHeader (remaining - 1) lex text b
  | message remaining text body =>
    if remaining = 1 then (start, some (finish text (b :: body)))
    else (message (remaining - 1) text (b :: body), none)
  | skip remaining => (if remaining = 1 then start else skip (remaining - 1), none)

def collect (s : Decoder × List Decoded) (b : UInt8) : Decoder × List Decoded :=
  match s.1.push b with
  | (d, none) => (d, s.2)
  | (d, some outcome) => (d, outcome :: s.2)

def feed (d : Decoder) (bytes : Bytes) : Decoder × List Decoded :=
  let s := bytes.foldl collect (d, [])
  (s.1, s.2.reverse)

def only (d : Decoder) : Bytes → Decoded
  | [] => .error .truncated
  | b :: rest =>
    match d.push b with
    | (d, none) => only d rest
    | (_, some (.error e)) => .error e
    | (_, some (.ok p)) => if rest.isEmpty then .ok p else .error (.trailingBytes rest.length)

end Decoder

/-- The packet that these bytes, and no others, spell. -/
def Packet.decode (bytes : Bytes) : Decoded := Decoder.start.only bytes

end JobBroker
