import JobBroker.Text.Hex
import JobBroker.Toml.Value
/-!
Blanks, comments, strings and keys of a TOML document. A reader gives what it read and the rest.
-/
namespace JobBroker.Toml

def isBlank (c : Char) : Bool := c == ' ' || c == '\t'

def skipBlanks (cs : List Char) : List Char := cs.dropWhile isBlank

def newline? : List Char → Option (List Char)
  | '\n' :: cs => some cs
  | '\r' :: '\n' :: cs => some cs
  | _ => none

def isPlain (c : Char) : Bool := c == '\t' || (c.toNat ≥ 0x20 && c.toNat != 0x7F)

def skipComment : List Char → List Char
  | '#' :: cs => cs.dropWhile isPlain
  | cs => cs

def skipFrom : (inComment : Bool) → List Char → List Char
  | _, '\n' :: cs => skipFrom false cs
  | _, '\r' :: '\n' :: cs => skipFrom false cs
  | false, '#' :: cs => skipFrom true cs
  | inComment, c :: cs =>
    if (if inComment then isPlain c else isBlank c) then skipFrom inComment cs else c :: cs
  | _, [] => []

def skipSpace (cs : List Char) : List Char := skipFrom false cs

def lineEnd? (cs : List Char) : Option (List Char) :=
  match skipComment (skipBlanks cs) with
  | [] => some []
  | rest => newline? rest

def codePoint? (count : Nat) (cs : List Char) : Option (Char × List Char) := do
  let (n, rest) ← Hex.read? count cs
  if n.isValidChar then some (Char.ofNat n, rest) else none

def escape? : List Char → Option (Char × List Char)
  | 'b' :: cs => some ('\x08', cs)
  | 't' :: cs => some ('\t', cs)
  | 'n' :: cs => some ('\n', cs)
  | 'f' :: cs => some ('\x0c', cs)
  | 'r' :: cs => some ('\r', cs)
  | '"' :: cs => some ('"', cs)
  | '\\' :: cs => some ('\\', cs)
  | 'u' :: cs => codePoint? 4 cs
  | 'U' :: cs => codePoint? 8 cs
  | _ => none

def finishText (done rest : List Char) : Option (String × List Char) :=
  some (String.ofList done.reverse, rest)

def basic : Nat → List Char → List Char → Option (String × List Char)
  | 0, _, _ => none
  | fuel + 1, done, cs =>
    match cs with
    | '"' :: rest => finishText done rest
    | '\\' :: rest => do
      let (c, rest) ← escape? rest
      basic fuel (c :: done) rest
    | c :: rest => if isPlain c then basic fuel (c :: done) rest else none
    | [] => none

def literal (cs : List Char) : Option (String × List Char) :=
  match cs.span fun c => c != '\'' && isPlain c with
  | (text, '\'' :: rest) => some (String.ofList text, rest)
  | _ => none

def skipFold : List Char → List Char
  | ' ' :: cs => skipFold cs
  | '\t' :: cs => skipFold cs
  | '\n' :: cs => skipFold cs
  | '\r' :: '\n' :: cs => skipFold cs
  | cs => cs

/-- A string in three quotes, behind its first line end. It ends at the next three quotes, of
which up to two more in front belong to the text. `escapes` tells whether a backslash is one. -/
def multiline (quote : Char) (escapes : Bool) :
    Nat → List Char → List Char → Option (String × List Char)
  | 0, _, _ => none
  | fuel + 1, done, cs =>
    match (cs.takeWhile (· == quote)).length with
    | 0 =>
      match cs with
      | '\r' :: '\n' :: rest => multiline quote escapes fuel ('\n' :: done) rest
      | '\n' :: rest => multiline quote escapes fuel ('\n' :: done) rest
      | '\\' :: rest =>
        if escapes then
          match newline? (skipBlanks rest) with
          | some rest => multiline quote escapes fuel done (skipFold rest)
          | none => do
            let (c, rest) ← escape? rest
            multiline quote escapes fuel (c :: done) rest
        else multiline quote escapes fuel ('\\' :: done) rest
      | c :: rest => if isPlain c then multiline quote escapes fuel (c :: done) rest else none
      | [] => none
    | n + 1 =>
      if n < 2 then multiline quote escapes fuel (quote :: done) (cs.drop 1)
      else
        let extra := min (n + 1) 5 - 3
        finishText (List.replicate extra quote ++ done) (cs.drop (extra + 3))

def multilineText (quote : Char) (escapes : Bool) (cs : List Char) :
    Option (String × List Char) :=
  multiline quote escapes (cs.length + 1) [] ((newline? cs).getD cs)

def text? : List Char → Option (String × List Char)
  | '"' :: '"' :: '"' :: cs => multilineText '"' true cs
  | '\'' :: '\'' :: '\'' :: cs => multilineText '\'' false cs
  | '"' :: cs => basic (cs.length + 1) [] cs
  | '\'' :: cs => literal cs
  | _ => none

def isBare (c : Char) : Bool := c.isAlphanum || c == '-' || c == '_'

def keyPart? (cs : List Char) : Option (String × List Char) :=
  match cs with
  | '"' :: rest => basic (rest.length + 1) [] rest
  | '\'' :: rest => literal rest
  | _ =>
    match cs.span isBare with
    | ([], _) => none
    | (part, rest) => some (String.ofList part, rest)

/-- The nesting and the length of keys stay below this. -/
def depthLimit : Nat := 80

def keyParts : Nat → List Char → Option (List String × List Char)
  | 0, _ => none
  | fuel + 1, cs => do
    let (part, rest) ← keyPart? (skipBlanks cs)
    match skipBlanks rest with
    | '.' :: rest => do
      let (parts, rest) ← keyParts fuel rest
      some (part :: parts, rest)
    | rest => some ([part], rest)

def key? (cs : List Char) : Option (List String × String × List Char) := do
  let (parts, rest) ← keyParts (depthLimit - 1) cs
  let last ← parts.getLast?
  some (parts.dropLast, last, rest)

end JobBroker.Toml
