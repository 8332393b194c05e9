import JobBroker.Packet.Encode
import JobBroker.Text.Split
/-!
Reading a header that has arrived whole. Commas outside brackets separate items, the first colon
of an item ends its key, and a value between brackets is an array without empty elements.
-/
namespace JobBroker.Header

/-- The items of the rest of a header, inside `depth` brackets, after the characters `item` of
the open item and the items `done`, both newest first. -/
def itemsFrom (depth : Nat) (item : List Char) (done : List (List Char)) :
    List Char → List (List Char)
  | [] => (item.reverse :: done).reverse
  | '[' :: cs => itemsFrom (depth + 1) ('[' :: item) done cs
  | ']' :: cs => itemsFrom (depth - 1) (']' :: item) done cs
  | ',' :: cs =>
    if depth = 0 then itemsFrom 0 [] (item.reverse :: done) cs
    else itemsFrom depth (',' :: item) done cs
  | c :: cs => itemsFrom depth (c :: item) done cs

def items (cs : List Char) : List (List Char) := itemsFrom 0 [] [] cs

def bracketed? : List Char → Option (List Char)
  | '[' :: cs => if cs.getLast? = some ']' then some cs.dropLast else none
  | _ => none

def comma : UInt8 := 44

def value (cs : List Char) : Except PacketError Value :=
  match bracketed? cs with
  | none => .ok (.scalar (String.ofList cs))
  | some [] => .ok (.array [])
  | some inner =>
    let elements := Text.splitOn ',' inner
    if elements.any List.isEmpty then .error (.headerSyntax comma)
    else .ok (.array (elements.map String.ofList))

def item (cs : List Char) : Except PacketError (Key × Value) :=
  match cs.span (· ≠ ':') with
  | (_, []) => .error (.headerSyntax comma)
  | (token, _ :: rest) =>
    match Key.ofToken? token with
    | none => .error (.unknownKey (String.ofList token))
    | some k => (value rest).map fun v => (k, v)

/-- Read the items in order; a later item replaces an earlier one of its key. -/
def collect (args : Arguments) : List (List Char) → Except PacketError Arguments
  | [] => .ok args
  | cs :: rest =>
    match item cs with
    | .error e => .error e
    | .ok (k, v) => collect (args.put k (some v)) rest

def parse (cs : List Char) : Except PacketError Arguments :=
  if cs.isEmpty then .ok {} else collect {} (items cs)

end JobBroker.Header
