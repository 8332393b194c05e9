/-!
Values of a TOML document and the rules by which tables grow. A table remembers how it came to
be, because only that decides who may still add to it: a header opens its table once, a dotted
key may only add to tables that dotted keys made, and a table written inline is closed.
-/
namespace JobBroker.Toml

inductive TableKind where
  /-- Opened by a header, or the document itself. -/
  | opened
  /-- Passed through by a longer header, but not opened yet. -/
  | implied
  /-- Passed through by a dotted key. -/
  | dotted
  /-- Written inline. -/
  | closed
  deriving DecidableEq, Repr

/-- A value. Dates and floating-point numbers are recognised but not kept. -/
inductive Value where
  | string (text : String)
  | integer (value : Int)
  | float
  | boolean (value : Bool)
  | date
  | array (elements : List Value)
  | table (kind : TableKind) (entries : List (String × Value))
  /-- The tables that double-bracket headers opened, latest first. -/
  | tables (all : List (List (String × Value)))

abbrev Entries := List (String × Value)

namespace Entries

def get? (es : Entries) (key : String) : Option Value := (es.find? fun e => e.1 == key).map (·.2)

def put (es : Entries) (key : String) (v : Value) : Entries :=
  if es.any (fun e => e.1 == key) then es.map fun e => if e.1 == key then (key, v) else e
  else es ++ [(key, v)]

def erase (es : Entries) (key : String) : Entries := es.filter fun e => e.1 != key

/-- Change the table that a path leads to, making tables of kind `made` on the way. Nothing
comes of a path that runs into a value, or by a dotted key into a table that a header opened. -/
def descend (made : TableKind) (change : TableKind → Entries → Option Entries) :
    List String → TableKind → Entries → Option Entries
  | [], kind, es => change kind es
  | key :: path, _, es =>
    match (es.get? key).getD (.table made []) with
    | .table kind inner =>
      if kind = .closed ∨ (made = .dotted ∧ kind = .opened) then none
      else (descend made change path kind inner).map fun t => es.put key (.table kind t)
    | .tables (latest :: earlier) =>
      (descend made change path .opened latest).map fun t => es.put key (.tables (t :: earlier))
    | _ => none

/-- Add a value under a key that must be new. A dotted key ends in a table that dotted keys made,
a plain one does not. -/
def addKey (path : List String) (key : String) (v : Value) (kind : TableKind) (es : Entries) :
    Option Entries :=
  descend .dotted
    (fun found t =>
      if (found == .dotted) == path.isEmpty then none
      else if (t.get? key).isSome then none
      else some (t.put key v))
    path kind es

def openTable (path : List String) (key : String) (es : Entries) : Option Entries :=
  descend .implied
    (fun _ t =>
      match t.get? key with
      | none => some (t.put key (.table .opened []))
      | some (.table .implied inner) => some ((t.erase key).put key (.table .opened inner))
      | some _ => none)
    path .opened es

def openNext (path : List String) (key : String) (es : Entries) : Option Entries :=
  descend .implied
    (fun _ t =>
      match t.get? key with
      | none => some (t.put key (.tables [[]]))
      | some (.tables all) => some (t.put key (.tables ([] :: all)))
      | some _ => none)
    path .opened es

def within (path : List String) (change : Entries → Option Entries) (es : Entries) :
    Option Entries :=
  descend .implied (fun _ t => change t) path .opened es

end Entries
end JobBroker.Toml
