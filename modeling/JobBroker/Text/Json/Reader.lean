import JobBroker.Text.Json
import JobBroker.Text.Utf8
/-!
Reading JSON. Blanks may stand around every value and mark; nothing may follow the value of a
text. An object keeps all its fields, in order and with repetitions.
-/
namespace JobBroker.JsonText

def isBlank (c : Char) : Bool := c == ' ' || c == '\t' || c == '\n' || c == '\r'

def skipBlanks (cs : List Char) : List Char := cs.dropWhile isBlank

/-- The character of a code unit, which may be the first half of a pair. -/
def readUnit? (cs : List Char) : Option (Char × List Char) := do
  let (n, rest) ← Hex.read? 4 cs
  if n.isValidChar then some (Char.ofNat n, rest)
  else
    match rest with
    | '\\' :: 'u' :: rest =>
      let (low, rest) ← Hex.read? 4 rest
      if n < 0xDC00 ∧ 0xDC00 ≤ low ∧ low < 0xE000 then
        some (Char.ofNat (0x10000 + (n - 0xD800) * 0x400 + (low - 0xDC00)), rest)
      else none
    | _ => none

def readEscape? : List Char → Option (Char × List Char)
  | '"' :: cs => some ('"', cs)
  | '\\' :: cs => some ('\\', cs)
  | '/' :: cs => some ('/', cs)
  | 'b' :: cs => some ('\x08', cs)
  | 'f' :: cs => some ('\x0c', cs)
  | 'n' :: cs => some ('\n', cs)
  | 'r' :: cs => some ('\r', cs)
  | 't' :: cs => some ('\t', cs)
  | 'u' :: cs => readUnit? cs
  | _ => none

def readString? : Nat → List Char → List Char → Option (String × List Char)
  | 0, _, _ => none
  | fuel + 1, done, cs =>
    match cs with
    | [] => none
    | '"' :: rest => some (String.ofList done.reverse, rest)
    | '\\' :: rest =>
      match readEscape? rest with
      | none => none
      | some (c, rest) => readString? fuel (c :: done) rest
    | c :: rest => if c.toNat < 0x20 then none else readString? fuel (c :: done) rest

def readDigits? (cs : List Char) : Option (List Char × List Char) :=
  let ds := cs.takeWhile Char.isDigit
  if ds.isEmpty then none else some (ds, cs.dropWhile Char.isDigit)

def readInteger? (cs : List Char) : Option (List Char × List Char) := do
  let (ds, rest) ← readDigits? cs
  if ds.head? = some '0' ∧ ds.length ≠ 1 then none else some (ds, rest)

def readFraction? : List Char → Option (List Char × List Char)
  | '.' :: cs => (readDigits? cs).map fun (ds, rest) => ('.' :: ds, rest)
  | cs => some ([], cs)

def readExponent? : List Char → Option (List Char × List Char)
  | 'e' :: cs | 'E' :: cs =>
    let sign := cs.takeWhile fun c => c == '+' || c == '-'
    if 1 < sign.length then none
    else (readDigits? (cs.drop sign.length)).map fun (ds, rest) => ('e' :: sign ++ ds, rest)
  | cs => some ([], cs)

def readNumber? (cs : List Char) : Option (JsonText × List Char) := do
  let sign := if cs.head? = some '-' then ['-'] else []
  let (whole, rest) ← readInteger? (cs.drop sign.length)
  let (fraction, rest) ← readFraction? rest
  let (exponent, rest) ← readExponent? rest
  match sign ++ fraction ++ exponent with
  | [] => some (.number (Nat.ofDigitChars 10 whole 0), rest)
  | _ :: _ => some (.literal (String.ofList (sign ++ whole ++ fraction ++ exponent)), rest)

def afterWord? (word : String) (cs : List Char) : Option (List Char) :=
  if word.toList.isPrefixOf cs then some (cs.drop word.length) else none

def readWord? (cs : List Char) : Option (JsonText × List Char) :=
  ["true", "false", "null"].findSome? fun word =>
    (afterWord? word cs).map fun rest => (.literal word, rest)

mutual

def readValue? : Nat → List Char → Option (JsonText × List Char)
  | 0, _ => none
  | fuel + 1, cs =>
    match skipBlanks cs with
    | '"' :: rest => (readString? fuel [] rest).map fun (s, rest) => (.string s, rest)
    | '[' :: rest =>
      match skipBlanks rest with
      | ']' :: rest => some (.list [], rest)
      | rest => (readElements? fuel [] rest).map fun (es, rest) => (.list es, rest)
    | '\x7b' :: rest =>
      match skipBlanks rest with
      | '\x7d' :: rest => some (.object [], rest)
      | rest => (readFields? fuel [] rest).map fun (fs, rest) => (.object fs, rest)
    | rest => (readWord? rest).or (readNumber? rest)

def readElements? : Nat → List JsonText → List Char → Option (List JsonText × List Char)
  | 0, _, _ => none
  | fuel + 1, done, cs =>
    match readValue? fuel cs with
    | none => none
    | some (v, rest) =>
      match skipBlanks rest with
      | ',' :: rest => readElements? fuel (v :: done) rest
      | ']' :: rest => some ((v :: done).reverse, rest)
      | _ => none

def readFields? : Nat → List (String × JsonText) → List Char →
    Option (List (String × JsonText) × List Char)
  | 0, _, _ => none
  | fuel + 1, done, cs =>
    match skipBlanks cs with
    | '"' :: rest =>
      match readString? fuel [] rest with
      | none => none
      | some (name, rest) =>
        match skipBlanks rest with
        | ':' :: rest =>
          match readValue? fuel rest with
          | none => none
          | some (v, rest) =>
            match skipBlanks rest with
            | ',' :: rest => readFields? fuel ((name, v) :: done) rest
            | '\x7d' :: rest => some (((name, v) :: done).reverse, rest)
            | _ => none
        | _ => none
    | _ => none

end

/-- The value that a text spells. Of two steps of reading that follow each other at least one takes
a character, so twice the length of the text is fuel enough. -/
def read? (cs : List Char) : Option JsonText :=
  match readValue? (2 * cs.length + 2) cs with
  | none => none
  | some (v, rest) => if (skipBlanks rest).isEmpty then some v else none

def ofBytes? (b : Bytes) : Option JsonText := (Text.decode? b).bind fun s => read? s.toList

def field? (fields : List (String × JsonText)) (name : String) : Option JsonText :=
  match fields.filter fun f => f.1 == name with
  | [f] => some f.2
  | _ => none

/-- The values of a record with these fields, which may also be given as the list of its values.
Other fields of an object do not count. -/
def record? (names : List String) : JsonText → Option (List JsonText)
  | object fields => names.mapM (field? fields)
  | list values => if values.length = names.length then some values else none
  | _ => none

def word? : JsonText → Option Nat
  | number n => if n ≤ Decimal.maxWord then some n else none
  | _ => none

def text? : JsonText → Option String
  | string s => some s
  | _ => none

def list? (element? : JsonText → Option α) : JsonText → Option (List α)
  | list es => es.mapM element?
  | _ => none

end JobBroker.JsonText
