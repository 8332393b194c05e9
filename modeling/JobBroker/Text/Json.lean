import JobBroker.Text.Decimal
import JobBroker.Text.Hex
/-!
Values of the JSON format, and their text without blanks.
-/
namespace JobBroker

inductive JsonText where
  /-- A word, or a number that is not a natural one, as it is spelled. -/
  | literal (spelling : String)
  | number (n : Nat)
  | string (s : String)
  | list (elements : List JsonText)
  | object (fields : List (String × JsonText))

namespace JsonText

def escape (c : Char) : String :=
  match c with
  | '"' => "\\\""
  | '\\' => "\\\\"
  | '\n' => "\\n"
  | '\r' => "\\r"
  | '\t' => "\\t"
  | '\x08' => "\\b"
  | '\x0c' => "\\f"
  | c => if c.toNat < 0x20 then "\\u00" ++ Hex.byte (UInt8.ofNat c.toNat) else c.toString

def quote (s : String) : String := "\"" ++ String.join (s.toList.map escape) ++ "\""

mutual

def render : JsonText → String
  | literal s => s
  | number n => Decimal.write n
  | string s => quote s
  | list es => "[" ++ String.intercalate "," (renderAll es) ++ "]"
  | object fs => "\x7b" ++ String.intercalate "," (renderFields fs) ++ "\x7d"

def renderAll : List JsonText → List String
  | [] => []
  | e :: es => render e :: renderAll es

def renderFields : List (String × JsonText) → List String
  | [] => []
  | (k, v) :: fs => (quote k ++ ":" ++ render v) :: renderFields fs

end

end JsonText
end JobBroker
