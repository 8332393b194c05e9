import JobBroker.Control.Run
/-!
The control program on the command line. It has no network of its own: commands that need none are
carried out, and all others report that nobody can be reached.
-/

def main (args : List String) : IO UInt32 := do
  let around := JobBroker.Control.Surroundings.unreachable "Network is unreachable (os error 101)"
  let outcome := JobBroker.Control.run around args
  outcome.output.forM fun line => IO.println line
  outcome.complaint.forM fun line => IO.eprintln line
  return outcome.code
