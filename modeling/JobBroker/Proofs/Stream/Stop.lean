import JobBroker.Proofs.Stream.Reads
import JobBroker.Session.Basic

/-! Where a session stops reading: at the first answer of its reader that is the end of the stream,
a failed read or a fatal fault. Every stream that ends has such an answer. -/
namespace JobBroker.StreamReader

def Answer.ending? : Answer → Option ReceiveEnd
  | .item (.malformed e) => if e.isFatal then some (.fatal e) else none
  | .item .closed => some .endOfStream
  | .failed cause => some (.failed cause)
  | .item (.message _) | .waiting => none

/-- Successive calls give these items, none of which ends a session, and then an answer that does.
-/
structure Stops (ending : Ending) (r : StreamReader) (reads : List Bytes) (heard : List Inbound)
    (why : ReceiveEnd) : Prop where
  goesOn : ∀ item ∈ heard, (Answer.item item).ending? = none
  answers : ∃ stop, calls ending (heard.length + 1) r reads = heard.map .item ++ [stop] ∧
    stop.ending? = some why

variable {ending : Ending} {r r' : StreamReader} {reads rest : List Bytes} {item : Inbound}
  {heard : List Inbound} {why : ReceiveEnd}

theorem stops_at_once (h : (r.next ending reads).1.ending? = some why) :
    Stops ending r reads [] why :=
  ⟨List.forall_mem_nil _, _, rfl, h⟩

theorem Stops.cons (h : Stops ending r' rest heard why)
    (hnext : r.next ending reads = (.item item, r', rest))
    (hitem : (Answer.item item).ending? = none) : Stops ending r reads (item :: heard) why := by
  obtain ⟨stop, hcalls, hstop⟩ := h.answers
  refine ⟨List.forall_mem_cons.2 ⟨hitem, h.goesOn⟩, stop, ?_, hstop⟩
  rw [List.length_cons, calls, hnext, hcalls]
  rfl

theorem Stops.uncons (h : Stops ending r reads (item :: heard) why) :
    (r.next ending reads).1 = .item item ∧
      Stops ending (r.next ending reads).2.1 (r.next ending reads).2.2 heard why := by
  obtain ⟨stop, hcalls, hstop⟩ := h.answers
  rw [List.length_cons, calls, List.map_cons, List.cons_append, List.cons.injEq] at hcalls
  exact ⟨hcalls.1, fun item hitem => h.goesOn item (List.mem_cons_of_mem _ hitem), stop, hcalls.2,
    hstop⟩

theorem Stops.nil (h : Stops ending r reads [] why) :
    (r.next ending reads).1.ending? = some why := by
  obtain ⟨stop, hcalls, hstop⟩ := h.answers
  obtain rfl := List.singleton_inj.1 hcalls
  exact hstop

theorem calls_congr {reads' : List Bytes} (h : r.next ending reads = r'.next ending reads')
    (n : Nat) : calls ending n r reads = calls ending n r' reads' := by
  cases n with
  | zero => rfl
  | succ n => rw [calls, calls, h]

theorem Stops.congr {reads' : List Bytes} (h : Stops ending r' reads' heard why)
    (hnext : r.next ending reads = r'.next ending reads') : Stops ending r reads heard why := by
  obtain ⟨stop, hcalls, hstop⟩ := h.answers
  exact ⟨h.goesOn, stop, by rw [calls_congr hnext, hcalls], hstop⟩

theorem Stops.length_lt {n : Nat} {answer : Answer} (h : Stops ending r reads heard why)
    (hmem : answer ∈ calls ending n r reads)
    (hanswer : ∀ item, answer = .item item → answer.ending? ≠ none) : heard.length < n := by
  by_contra hfew
  obtain ⟨k, hk⟩ := Nat.exists_eq_add_of_le (Nat.not_lt.1 hfew)
  obtain ⟨stop, hcalls, -⟩ := h.answers
  rw [← calls_take ending n (k + 1), ← Nat.add_assoc, ← hk, hcalls,
    List.take_append_of_le_length (by rw [List.length_map, hk]; exact Nat.le_add_right ..)] at hmem
  obtain ⟨item, hitem, rfl⟩ := List.mem_map.1 (List.mem_of_mem_take hmem)
  exact hanswer item rfl (h.goesOn item hitem)

/-! The calls by what they take: what the reader holds, the reads one after the other, and the end.
-/

theorem calls_drain (ending : Ending) (n : Nat) (r : StreamReader) (reads : List Bytes) :
    calls ending (r.drain.1.length + n) r reads =
      r.drain.1.map .item ++ calls ending n r.drain.2 reads := by
  induction r using drain.induct with
  | case1 r r' hbuffered =>
    rw [drain_none hbuffered, List.length_nil, Nat.zero_add, List.map_nil, List.nil_append]
    exact calls_congr (next_none hbuffered ending reads) n
  | case2 r item r' hbuffered _ _ _ ih =>
    rw [drain_some hbuffered, List.length_cons, Nat.add_right_comm, calls,
      next_some hbuffered ending reads, ih]
    rfl

theorem closed_drain (r : StreamReader) : r.drain.2.closed = r.closed := by
  rw [drain_eq]

def drainAll (r : StreamReader) : List Bytes → List Inbound × StreamReader
  | [] => r.drain
  | read :: rest =>
    let (items, r') := (r.drain.2.take read).drainAll rest
    (r.drain.1 ++ items, r')

theorem idle_drainAll (r : StreamReader) (reads : List Bytes) : (r.drainAll reads).2.Idle := by
  induction reads generalizing r with
  | nil => exact r.idle_drain
  | cons read rest ih => exact ih (r.drain.2.take read)

theorem closed_drainAll (r : StreamReader) (reads : List Bytes) :
    (r.drainAll reads).2.closed = r.closed := by
  induction reads generalizing r with
  | nil => exact r.closed_drain
  | cons read rest ih => exact (ih (r.drain.2.take read)).trans r.closed_drain

theorem calls_drainAll (hopen : r.closed = false) (hreads : [] ∉ reads) (n : Nat) :
    calls ending ((r.drainAll reads).1.length + n) r reads =
      (r.drainAll reads).1.map .item ++ calls ending n (r.drainAll reads).2 [] := by
  induction reads generalizing r with
  | nil => exact calls_drain ending n r []
  | cons read rest ih =>
    have hread : read ≠ [] := fun hnil => hreads (hnil ▸ List.mem_cons_self ..)
    have hstill : r.drain.2.closed = false := r.closed_drain.trans hopen
    have hnext := next_read r.idle_drain hstill hread ending rest
    have hrest := ih (r := r.drain.2.take read) hstill fun hmem =>
      hreads (List.mem_cons_of_mem _ hmem)
    have hall : r.drainAll (read :: rest) =
        (r.drain.1 ++ ((r.drain.2.take read).drainAll rest).1,
          ((r.drain.2.take read).drainAll rest).2) := rfl
    rw [hall, List.length_append, Nat.add_assoc, calls_drain, calls_congr hnext, hrest,
      List.map_append, List.append_assoc]

def lastAnswers (r : StreamReader) : Ending → List Answer
  | .unknown => [.waiting]
  | .failure cause => [.failed cause]
  | .endOfStream => [.item r.finish.1, .item .closed]

theorem calls_last (h : r.Idle) (hopen : r.closed = false) (ending : Ending) :
    calls ending (r.lastAnswers ending).length r [] = r.lastAnswers ending := by
  cases ending with
  | unknown | failure cause =>
    rw [lastAnswers, List.length_singleton, calls, next_end h hopen]
    rfl
  | endOfStream =>
    have hidle : r.finish.2.Idle := ⟨h.deferred, h.pending⟩
    rw [lastAnswers, List.length_cons, List.length_singleton, calls, next_end h hopen]
    exact congrArg _ (calls_closed hidle rfl .endOfStream 1 [])

theorem exists_last (r : StreamReader) (ending : Ending) :
    ∃ answer ∈ r.lastAnswers ending, ∀ item, answer = .item item → answer.ending? ≠ none := by
  cases ending with
  | unknown => exact ⟨.waiting, List.mem_cons_self .., fun _ hitem => by cases hitem⟩
  | failure cause => exact ⟨.failed cause, List.mem_cons_self .., fun _ hitem => by cases hitem⟩
  | endOfStream =>
    exact ⟨.item .closed, List.mem_cons_of_mem _ (List.mem_cons_self ..),
      fun _ _ => Option.some_ne_none _⟩

def allAnswers (r : StreamReader) (ending : Ending) (reads : List Bytes) : List Answer :=
  (r.drainAll reads).1.map .item ++ (r.drainAll reads).2.lastAnswers ending

theorem calls_allAnswers (hopen : r.closed = false) (hreads : [] ∉ reads) (ending : Ending) :
    calls ending (r.allAnswers ending reads).length r reads = r.allAnswers ending reads := by
  have hclosed := (r.closed_drainAll reads).trans hopen
  rw [allAnswers, List.length_append, List.length_map, calls_drainAll hopen hreads,
    calls_last (r.idle_drainAll reads) hclosed]

theorem Stops.length_lt_allAnswers (h : Stops ending r reads heard why) (hopen : r.closed = false)
    (hreads : [] ∉ reads) : heard.length < (r.allAnswers ending reads).length := by
  obtain ⟨answer, hlast, hanswer⟩ := (r.drainAll reads).2.exists_last ending
  refine h.length_lt ?_ hanswer
  rw [calls_allAnswers hopen hreads]
  exact List.mem_append_right _ hlast

/-! Every stream that ends is stopped at. -/

theorem stops_closed (h : r.Idle) (hclosed : r.closed = true) (reads : List Bytes) :
    Stops ending r reads [] .endOfStream :=
  stops_at_once (by rw [next_closed h hclosed]; rfl)

theorem finish_cases (r : StreamReader) :
    r.finish.1 = .malformed .truncated ∨ r.finish.1 = .closed := by
  unfold finish
  dsimp only
  split
  · exact .inl rfl
  · exact .inr rfl

theorem exists_stops_finish (h : r'.Idle)
    (hnext : r.next ending reads = (.item r'.finish.1, r'.finish.2, rest)) :
    ∃ heard, Stops ending r reads heard .endOfStream := by
  have hidle : r'.finish.2.Idle := ⟨h.deferred, h.pending⟩
  obtain htruncated | hclosed := r'.finish_cases
  · rw [htruncated] at hnext
    exact ⟨_, (stops_closed hidle rfl rest).cons hnext rfl⟩
  · exact ⟨[], stops_at_once (by rw [hnext, hclosed]; rfl)⟩

theorem exists_stops_some (hbuffered : r.buffered = (some item, r'))
    (h : ∃ heard why, Stops ending r' reads heard why) :
    ∃ heard why, Stops ending r reads heard why := by
  have hnext := next_some hbuffered ending reads
  obtain ⟨heard, why, hstops⟩ := h
  cases hitem : (Answer.item item).ending? with
  | some why => exact ⟨[], why, stops_at_once (by rw [hnext, hitem])⟩
  | none => exact ⟨item :: heard, why, hstops.cons hnext hitem⟩

theorem exists_stops_drained
    (h : ∀ r : StreamReader, r.Idle → r.closed = false →
      ∃ heard why, Stops ending r reads heard why) (r : StreamReader) :
    ∃ heard why, Stops ending r reads heard why := by
  induction r using drain.induct with
  | case1 r r' hbuffered =>
    obtain ⟨hidle, -⟩ := buffered_none hbuffered
    have hstops : ∃ heard why, Stops ending r' reads heard why := by
      cases hclosed : r'.closed with
      | true => exact ⟨[], _, stops_closed hidle hclosed reads⟩
      | false => exact h r' hidle hclosed
    obtain ⟨heard, why, hstops⟩ := hstops
    exact ⟨heard, why, hstops.congr (next_none hbuffered ending reads)⟩
  | case2 r item r' hbuffered _ _ _ ih => exact exists_stops_some hbuffered ih

/-- However a stream ends, its reader comes to an answer that ends a session. -/
theorem exists_stops (hends : ending ≠ .unknown) (r : StreamReader) (reads : List Bytes) :
    ∃ heard why, Stops ending r reads heard why := by
  induction reads generalizing r with
  | nil =>
    refine exists_stops_drained (fun r hidle hopen => ?_) r
    have hend := next_end hidle hopen ending
    cases ending with
    | unknown => exact absurd rfl hends
    | failure cause => exact ⟨[], .failed cause, stops_at_once (by rw [hend]; rfl)⟩
    | endOfStream =>
      obtain ⟨heard, hstops⟩ := exists_stops_finish hidle hend
      exact ⟨heard, _, hstops⟩
  | cons read rest ih =>
    refine exists_stops_drained (fun r hidle hopen => ?_) r
    by_cases hread : read = []
    · subst hread
      obtain ⟨heard, hstops⟩ := exists_stops_finish hidle (next_empty hidle hopen ending rest)
      exact ⟨heard, _, hstops⟩
    · obtain ⟨heard, why, hstops⟩ := ih (r.take read)
      exact ⟨heard, why, hstops.congr (next_read hidle hopen hread ending rest)⟩

theorem next_message {p : Packet} (hopen : r.closed = false)
    (h : r.next ending reads = (.item (.message p), r', rest)) :
    r'.closed = false ∧ rest <:+ reads := by
  have hfinish (r : StreamReader) : r.finish.1 ≠ .message p := by
    obtain htruncated | hclosed := r.finish_cases <;> simp [*]
  induction reads generalizing r with
  | nil =>
    rcases hbuffered : r.buffered with ⟨_ | item, mid⟩
    · obtain ⟨hidle, hmid⟩ := buffered_none hbuffered
      rw [next_none hbuffered, next_end hidle (hmid.trans hopen)] at h
      cases ending <;> simp [atEnd, hfinish] at h
    · rw [next_some hbuffered] at h
      cases h
      exact ⟨(buffered_some hbuffered).trans hopen, List.suffix_refl _⟩
  | cons read reads ih =>
    rcases hbuffered : r.buffered with ⟨_ | item, mid⟩
    · obtain ⟨hidle, hmid⟩ := buffered_none hbuffered
      rw [hopen] at hmid
      rw [next_none hbuffered] at h
      by_cases hread : read = []
      · rw [hread, next_empty hidle hmid] at h
        simp [hfinish] at h
      · rw [next_read hidle hmid hread] at h
        have htake : (mid.take read).closed = false := hmid
        obtain ⟨hstill, hrest⟩ := ih htake h
        exact ⟨hstill, hrest.trans (List.suffix_cons ..)⟩
    · rw [next_some hbuffered] at h
      cases h
      exact ⟨(buffered_some hbuffered).trans hopen, List.suffix_refl _⟩

end JobBroker.StreamReader
