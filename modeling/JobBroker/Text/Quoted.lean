import JobBroker.Text.Hex
import JobBroker.Text.Printable
/-!
Values quoted in messages: double quotes around the text, with escapes for quotes, backslashes
and whatever could not be read in a terminal.
-/
namespace JobBroker.Text

/-- A character code between braces, as in `\u{7f}`. -/
def escapeCode (c : Char) : String := "\\u\x7b" ++ Hex.write c.toNat ++ "\x7d"

def escape (c : Char) : String :=
  match c with
  | '\x00' => "\\0"
  | '\t' => "\\t"
  | '\r' => "\\r"
  | '\n' => "\\n"
  | '"' => "\\\""
  | '\\' => "\\\\"
  | c => if isExtending c || !isPrintable c then escapeCode c else c.toString

def quote (s : String) : String := "\"" ++ String.join (s.toList.map escape) ++ "\""

end JobBroker.Text
