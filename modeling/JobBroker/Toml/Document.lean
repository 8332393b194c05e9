import JobBroker.Toml.Scalar
/-!
Whole TOML documents. Lines are read one by one and applied to the table of the document; a
fault anywhere refuses the document.
-/
namespace JobBroker.Toml

abbrev ReadValue := List Char → Option (Value × List Char)

def elements (read : ReadValue) : Nat → List Value → List Char → Option (Value × List Char)
  | 0, _, _ => none
  | fuel + 1, done, cs =>
    match skipSpace cs with
    | ']' :: rest => some (.array done.reverse, rest)
    | cs => do
      let (v, rest) ← read cs
      match skipSpace rest with
      | ']' :: rest => some (.array (v :: done).reverse, rest)
      | ',' :: rest => elements read fuel (v :: done) rest
      | _ => none

def pairs (read : ReadValue) : Nat → Entries → List Char → Option (Value × List Char)
  | 0, _, _ => none
  | fuel + 1, done, cs => do
    let (path, key, rest) ← key? cs
    let rest ← expect '=' rest
    let (v, rest) ← read (skipBlanks rest)
    let done ← done.addKey path key v .closed
    match skipBlanks rest with
    | '\x7d' :: rest => some (.table .closed done, rest)
    | ',' :: rest => pairs read fuel done rest
    | _ => none

def value : Nat → ReadValue
  | 0, _ => none
  | depth + 1, cs =>
    match cs with
    | '[' :: rest => if depth = 0 then none else elements (value depth) cs.length [] rest
    | '\x7b' :: rest =>
      if depth = 0 then none
      else
        match skipBlanks rest with
        | '\x7d' :: rest => some (.table .closed [], rest)
        | rest => pairs (value depth) cs.length [] rest
    | 't' :: 'r' :: 'u' :: 'e' :: rest => some (.boolean true, rest)
    | 'f' :: 'a' :: 'l' :: 's' :: 'e' :: rest => some (.boolean false, rest)
    | c :: _ =>
      if c == '"' || c == '\'' then (text? cs).map fun (s, rest) => (.string s, rest)
      else number? cs
    | [] => none

inductive Line where
  | pair (path : List String) (key : String) (value : Value)
  | header (path : List String) (key : String)
  | nextHeader (path : List String) (key : String)

def line? (cs : List Char) : Option (Line × List Char) :=
  match cs with
  | '[' :: '[' :: rest => do
    let (path, key, rest) ← key? rest
    let rest ← expect ']' rest
    let rest ← expect ']' rest
    let rest ← lineEnd? rest
    some (.nextHeader path key, rest)
  | '[' :: rest => do
    let (path, key, rest) ← key? rest
    let rest ← expect ']' rest
    let rest ← lineEnd? rest
    some (.header path key, rest)
  | _ => do
    let (path, key, rest) ← key? cs
    let rest ← expect '=' rest
    let (v, rest) ← value depthLimit (skipBlanks rest)
    let rest ← lineEnd? rest
    some (.pair path key v, rest)

structure Draft where
  entries : Entries := []
  current : List String := []

def Draft.apply (d : Draft) : Line → Option Draft
  | .pair path key v =>
    (d.entries.within d.current fun t => t.addKey path key v .opened).map
      fun es => { d with entries := es }
  | .header path key =>
    (d.entries.openTable path key).map fun es => { entries := es, current := path ++ [key] }
  | .nextHeader path key =>
    (d.entries.openNext path key).map fun es => { entries := es, current := path ++ [key] }

def Draft.read : Nat → Draft → List Char → Option Entries
  | 0, _, _ => none
  | fuel + 1, d, cs =>
    match skipSpace cs with
    | [] => some d.entries
    | cs => do
      let (line, rest) ← line? cs
      let d ← d.apply line
      Draft.read fuel d rest

def parse (s : String) : Option Entries :=
  let cs := match s.toList with
    | '\uFEFF' :: cs => cs
    | cs => cs
  Draft.read (cs.length + 1) {} cs

end JobBroker.Toml
