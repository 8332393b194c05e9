/-!
Text set in columns. A text that is wider than its column keeps its width.
-/
namespace JobBroker.Text

def gap (width : Nat) (s : String) : String := String.ofList (List.replicate (width - s.length) ' ')

def alignLeft (width : Nat) (s : String) : String := s ++ gap width s

def alignRight (width : Nat) (s : String) : String := gap width s ++ s

end JobBroker.Text
