import JobBroker.Packet.Basic
/-!
The wire form of a packet: the length of its body in parentheses, then the body. The body is the
header, a newline and the message; the header is `KEY:VALUE` items between commas, an array
being written in brackets.
-/
namespace JobBroker

def isTokenChar (c : Char) : Bool :=
  match c with
  | ',' | ':' | '[' | ']' | '(' | ')' | '\n' => false
  | _ => true

namespace Value

def isWritable : Value → Bool
  | scalar s => s.toList.all isTokenChar
  | array es => es.all fun e => !e.isEmpty && e.toList.all isTokenChar

def text : Value → List Char
  | scalar s => s.toList
  | array es => '[' :: List.intercalate [','] (es.map String.toList) ++ [']']

end Value

namespace Packet

def item (kv : Key × Value) : List Char := kv.1.name.toList ++ ':' :: kv.2.text

def header (p : Packet) : List Char := List.intercalate [','] (p.args.toList.map item)

def body (p : Packet) : Bytes := Text.utf8 p.header ++ 10 :: p.message

def frame (body : Bytes) : Bytes :=
  Text.utf8 ('(' :: Decimal.digits body.length ++ [')']) ++ body

/-- The wire form. The first value in order that cannot be written is reported before the size. -/
def encode (p : Packet) : Except PacketError Bytes :=
  match p.args.toList.find? (fun kv => !kv.2.isWritable) with
  | some kv => .error (.reservedCharacter kv.1)
  | none =>
    let body := p.body
    let size := body.length
    if maxBody < size then .error (.tooLarge size)
    else .ok (frame body)

end Packet
end JobBroker
