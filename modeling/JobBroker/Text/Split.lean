/-!
Text cut at a separator, and text as the lines that a terminal shows.
-/
namespace JobBroker.Text

def splitOn (sep : Char) (cs : List Char) : List (List Char) :=
  cs.foldr
    (fun c pieces =>
      if c = sep then [] :: pieces
      else match pieces with
        | [] => [[c]]
        | piece :: rest => (c :: piece) :: rest)
    [[]]

def chomp (line : List Char) : List Char :=
  if line.getLast? = some '\r' then line.dropLast else line

/-- The lines of a text. Behind the last line feed a line begins only if something follows. -/
def lines (s : String) : List String :=
  let pieces := splitOn '\n' s.toList
  let pieces := if pieces.getLast? = some [] then pieces.dropLast else pieces
  pieces.map fun line => String.ofList (chomp line)

end JobBroker.Text
