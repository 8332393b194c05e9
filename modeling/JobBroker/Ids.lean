/-!
Numbers for jobs, workers and requesters: three counters from zero that never give the same
number twice. They are natural numbers, and so are the counts in the books of requesters and workers
and those of a watcher. A run is taken to draw and to count fewer than 2 ^ 64 of anything, so that
none of them begins anew as a counter of 64 bits would.
-/
namespace JobBroker

structure Ids where
  nextJob : Nat := 0
  nextWorker : Nat := 0
  nextRequester : Nat := 0
  deriving DecidableEq, Repr

namespace Ids

def drawJob (s : Ids) : Nat × Ids := (s.nextJob, { s with nextJob := s.nextJob + 1 })

def drawWorker (s : Ids) : Nat × Ids := (s.nextWorker, { s with nextWorker := s.nextWorker + 1 })

def drawRequester (s : Ids) : Nat × Ids :=
  (s.nextRequester, { s with nextRequester := s.nextRequester + 1 })

end Ids
end JobBroker
