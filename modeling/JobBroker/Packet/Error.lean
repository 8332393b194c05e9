import JobBroker.Packet.Key
import JobBroker.Text.Decimal
import JobBroker.Text.Quoted
import JobBroker.Text.Utf8
/-!
What can be wrong with a packet or with a message made of packets.
-/
namespace JobBroker

def maxBody : Nat := 1 <<< 20

inductive PacketError where
  | badOpening (byte : UInt8)
  | badLength (byte : UInt8)
  | emptyLength
  | tooLarge (size : Nat)
  | emptyBody
  | headerSyntax (byte : UInt8)
  | unknownKey (token : String)
  | unterminatedHeader
  | invalidUtf8
  | truncated
  | trailingBytes (count : Nat)
  | reservedCharacter (key : Key)
  | invalidValue (key : Key) (value : String)
  | incompleteMessage (missing total : Nat)
  deriving DecidableEq, Repr

namespace PacketError

def message : PacketError → String
  | badOpening b => s!"expected '(' to open a packet, found byte 0x{Hex.byte b}"
  | badLength b => s!"invalid byte 0x{Hex.byte b} in length prefix"
  | emptyLength => "length prefix is empty"
  | tooLarge n => s!"declared length {Decimal.write n} exceeds maximum of 1048576 bytes"
  | emptyBody => "packet body is empty"
  | headerSyntax b => s!"header syntax error at byte 0x{Hex.byte b}"
  | unknownKey t => s!"unknown header key {Text.quote t}"
  | unterminatedHeader => "header not terminated within declared length"
  | invalidUtf8 => "header is not valid UTF-8"
  | truncated => "packet truncated"
  | trailingBytes n => s!"{Decimal.write n} trailing bytes after packet"
  | reservedCharacter k => s!"value for {k.name} contains a reserved character"
  | invalidValue k v => s!"invalid {k.name} value {Text.quote v}"
  | incompleteMessage m t =>
    s!"incomplete message: {Decimal.write m} of {Decimal.write t} packets missing"

/-- Faults after which the bytes that follow cannot be trusted. -/
def isFatal : PacketError → Bool
  | tooLarge _ => true
  | _ => false

end PacketError
end JobBroker
