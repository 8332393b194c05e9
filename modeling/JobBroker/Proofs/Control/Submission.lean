import JobBroker.Control.Submission
import JobBroker.Proofs.Arithmetic
import JobBroker.Proofs.Job.Report
import JobBroker.Proofs.Stream.Messages

/-! Which jobs the control program asks for, and how many results it waits for. The two agree
unless the end of the numbers, one behind the last of them, runs over: then none is asked for. -/
namespace JobBroker.Control

/-! The numbers of the jobs. -/

theorem toNat_end_eq_iff (first count : UInt64) :
    (first + count).toNat = first.toNat + count.toNat ↔
      first.toNat + count.toNat ≤ Decimal.maxWord := by
  have hfirst := first.toNat_lt
  have hcount := count.toNat_lt
  rw [UInt64.toNat_add, Decimal.maxWord_eq]
  omega

/-- How many jobs are asked for: none if the end of their numbers runs over. -/
def asked (first count : UInt64) : Nat :=
  if first.toNat + count.toNat ≤ Decimal.maxWord then count.toNat else 0

def numbersFrom (first : UInt64) (n : Nat) : List UInt64 :=
  (List.range n).map fun i => first + UInt64.ofNat i

/-- Without checks an end that runs over lies below the first number, so that there are none. -/
theorem jobIds_eq (build : Build) (first count : UInt64) :
    jobIds build first count =
      if build.Bears (first.toNat + count.toNat) then .ok (numbersFrom first (asked first count))
      else .error .addOverflow := by
  rw [jobIds, Build.add_eq]
  split
  · have hfirst := first.toNat_lt
    have hcount := count.toNat_lt
    have hasked : (UInt64.ofNat (first.toNat + count.toNat)).toNat - first.toNat =
        asked first count := by
      rw [asked, Decimal.maxWord_eq, UInt64.toNat_ofNat']
      split <;> omega
    rw [Except.map, hasked, numbersFrom]
  · rfl

theorem toNat_numbersFrom {first count id : UInt64} {i : Nat}
    (h : (numbersFrom first (asked first count))[i]? = some id) : id.toNat = first.toNat + i := by
  rw [numbersFrom, List.getElem?_map] at h
  obtain ⟨n, hn, rfl⟩ := Option.map_eq_some_iff.1 h
  obtain ⟨hlt, hi⟩ := List.getElem?_eq_some_iff.1 hn
  rw [List.getElem_range] at hi
  subst hi
  rw [List.length_range, asked, Decimal.maxWord_eq] at hlt
  rw [UInt64.toNat_add, UInt64.toNat_ofNat']
  split at hlt <;> omega

/-! What is written. -/

def requests (jobType : JobType) (ids : List UInt64) : List Packet :=
  ids.map fun id => { id := id, jobType := jobType : Job }.requestPacket

theorem requestAll_sink (jobType : JobType) (ids : List UInt64) (taken : Bytes) :
    requestAll jobType (.sink none taken) ids =
      (none, .sink none (taken ++ wireOf (requests jobType ids))) := by
  induction ids generalizing taken with
  | nil => simp [requestAll, requests, wireOf]
  | cons id ids ih =>
    obtain ⟨bytes, hencode⟩ := { id := id, jobType := jobType : Job }.encodes_requestPacket
    obtain ⟨-, -, hbytes⟩ := (Packet.encode_ok_iff _ bytes).1 hencode
    have hsend : (Outlet.sink none taken).sendPacket
        { id := id, jobType := jobType : Job }.requestPacket =
          (.ok (), .sink none (taken ++ bytes)) := by
      simp only [Outlet.sendPacket, hencode, Outlet.sendRaw, Outlet.put_sink]
    rw [requestAll, hsend]
    dsimp only
    rw [ih]
    simp [requests, wireOf, hbytes]

theorem feed_requests (jobType : JobType) (ids : List UInt64) :
    Decoder.start.feed (wireOf (requests jobType ids)) =
      (.start, (requests jobType ids).map .ok) := by
  have hall : ∀ p ∈ requests jobType ids, (∃ bytes, p.encode = .ok bytes) ∧ p.upper = p := by
    intro p hp
    obtain ⟨id, -, rfl⟩ := List.mem_map.1 hp
    exact ⟨Job.encodes_requestPacket _, Job.upper_requestPacket _⟩
  rw [feed_wireOf fun p hp => (hall p hp).1]
  exact congrArg _ (List.map_congr_left fun p hp => congrArg _ (hall p hp).2)

/-! What is waited for. -/

def answers : List Inbound → List Job
  | .message p :: rest => (Job.ofResult p).toOption.toList ++ answers rest
  | .malformed _ :: rest => answers rest
  | .closed :: _ | [] => []

theorem received_take (t : Tally) (p : Packet) :
    (t.take p).received = t.received + (Job.ofResult p).toOption.toList.length := by
  unfold Tally.take
  cases Job.ofResult p <;> rfl

theorem collect_ends_iff (count : Nat) (cut : Failure) (t : Tally) (items : List Inbound)
    (h : t.received ≤ count) :
    (t.collect count cut items).2 = none ↔ count ≤ t.received + (answers items).length := by
  induction items generalizing t with
  | nil =>
    rw [Tally.collect, answers, List.length_nil]
    by_cases hall : t.received = count
    · simp [hall]
    · simp only [if_neg hall, reduceCtorEq, false_iff]
      omega
  | cons item rest ih =>
    by_cases hall : t.received = count
    · have hdone : t.collect count cut (item :: rest) = (t, none) := by
        cases item <;> exact if_pos hall
      simp [hdone, hall]
    cases item with
    | message p =>
      have htake := received_take t p
      have hone : (Job.ofResult p).toOption.toList.length ≤ 1 := Option.length_toList_le
      rw [Tally.collect, if_neg hall, ih (t.take p) (by omega), htake, answers,
        List.length_append, Nat.add_assoc]
    | malformed e =>
      rw [Tally.collect, if_neg hall]
      exact ih (t.note _) h
    | closed =>
      rw [Tally.collect, if_neg hall]
      simp only [answers, List.length_nil, reduceCtorEq, false_iff]
      omega

/-- Over a connection that takes all bytes either the numbers are reckoned, and then all requests
are written, or the program panics before it writes anything. -/
theorem submit_cases (build : Build) (o : Options) (link : Link) (elapsed : Millis)
    (hlink : link.outlet = .sink none []) :
    let written := wireOf (requests o.jobType (numbersFrom o.firstId (asked o.firstId o.count)))
    let c := submit build o link elapsed
    c.outlet = .sink none written ∧
      ((build.Bears (o.firstId.toNat + o.count.toNat) ∧
          (c.failure = none ↔ o.count.toNat ≤ (answers link.items).length)) ∨
        (¬ build.Bears (o.firstId.toNat + o.count.toNat) ∧ c.output = [] ∧
          c.failure = some (.panicked .addOverflow))) := by
  intro written c
  have hids := jobIds_eq build o.firstId o.count
  by_cases hbears : build.Bears (o.firstId.toNat + o.count.toNat)
  · rw [if_pos hbears] at hids
    have hwritten := requestAll_sink o.jobType (numbersFrom o.firstId (asked o.firstId o.count)) []
    have hends := collect_ends_iff o.count.toNat (.connectionFailed (link.failure.getD "")) {}
      link.items (Nat.zero_le _)
    rw [List.nil_append] at hwritten
    rw [Nat.zero_add] at hends
    have hc : c.outlet = .sink none written ∧
        (c.failure = none ↔ o.count.toNat ≤ (answers link.items).length) := by
      simp only [c, submit, hids, hlink, hwritten, written, true_and]
      exact hends
    exact ⟨hc.1, .inl ⟨hbears, hc.2⟩⟩
  · rw [if_neg hbears] at hids
    have hover := (Build.not_bears_iff.1 hbears).2
    have hnone : written = [] := by
      simp only [written, asked, if_neg (Nat.not_le.2 hover)]
      rfl
    have hc : c = { outlet := link.outlet, failure := some (.panicked .addOverflow) } := by
      simp only [c, submit, hids]
    rw [hc, hnone]
    exact ⟨hlink, .inr ⟨hbears, rfl, rfl⟩⟩

/-- Whatever the options are, over a connection that takes all bytes: written are requests, as many
as are asked for if the end of their numbers does not run over, and none if it does, for jobs of the
type with one number after the other. With checks the program panics over such an end, before it
tells anything. Without them as many results as are asked for are waited for in any case, so that a
peer that answers each request once satisfies the program just if all were written. -/
theorem submit_requests (build : Build) (o : Options) (reads : List Bytes)
    (failure : Option String) (elapsed : Millis) :
    let link : Link := { reads := reads, failure := failure }
    let c := submit build o link elapsed
    ∃ (written : Bytes) (packets : List Packet),
      c.outlet = .sink none written ∧
      Decoder.start.feed written = (.start, packets.map .ok) ∧
      ((o.firstId + o.count).toNat = o.firstId.toNat + o.count.toNat ↔
        o.firstId.toNat + o.count.toNat ≤ Decimal.maxWord) ∧
      packets.length =
        (if o.firstId.toNat + o.count.toNat ≤ Decimal.maxWord then o.count.toNat else 0) ∧
      (∀ i p, packets[i]? = some p → ∃ job, Job.ofRequest p = .ok job ∧
        job.id.toNat = o.firstId.toNat + i ∧ job.jobType = o.jobType) ∧
      (build = .checked → Decimal.maxWord < o.firstId.toNat + o.count.toNat →
        c.output = [] ∧ c.failure = some (.panicked .addOverflow)) ∧
      (c.failure = none ↔
        (build = .checked → o.firstId.toNat + o.count.toNat ≤ Decimal.maxWord) ∧
          o.count.toNat ≤ (answers link.items).length) ∧
      ((answers link.items).length = packets.length →
        (c.failure = none ↔ packets.length = o.count.toNat)) := by
  intro link c
  obtain ⟨houtlet, hends⟩ := submit_cases build o link elapsed rfl
  have hlength : (requests o.jobType (numbersFrom o.firstId (asked o.firstId o.count))).length =
      if o.firstId.toNat + o.count.toNat ≤ Decimal.maxWord then o.count.toNat else 0 := by
    rw [requests, numbersFrom, List.length_map, List.length_map, List.length_range, asked]
  have hfailure : c.failure = none ↔ build.Bears (o.firstId.toNat + o.count.toNat) ∧
      o.count.toNat ≤ (answers link.items).length := by
    obtain ⟨hbears, hall⟩ | ⟨hbears, -, hpanic⟩ := hends
    · rw [hall, and_iff_right hbears]
    · simp [c, hpanic, hbears]
  refine ⟨_, _, houtlet, feed_requests .., toNat_end_eq_iff .., hlength, fun i p hp => ?_,
    fun hchecked hover => ?_, hfailure, fun hanswers => ?_⟩
  · rw [requests, List.getElem?_map] at hp
    obtain ⟨id, hid, rfl⟩ := Option.map_eq_some_iff.1 hp
    exact ⟨_, Job.ofRequest_requestPacket _, toNat_numbersFrom hid, rfl⟩
  · obtain ⟨hbears, -⟩ | ⟨-, hpanic⟩ := hends
    · exact absurd (hbears hchecked) (Nat.not_le.2 hover)
    · exact hpanic
  · rw [hfailure, hanswers, hlength]
    by_cases hfits : o.firstId.toNat + o.count.toNat ≤ Decimal.maxWord
    · simp [hfits, Build.Bears.of_le hfits]
    · -- An end can only run over if there is at least one job.
      have hsome : o.count.toNat ≠ 0 := fun hzero =>
        hfits (by rw [hzero]; exact Nat.le_of_lt_succ o.firstId.toNat_lt)
      rw [if_neg hfits]
      exact iff_of_false (fun h => hsome (Nat.le_zero.1 h.2)) hsome.symm

/-- The last two numbers whose end is a number, with the results of both. -/
theorem submit_requests_last_two :
    let o : Options := { jobType := .b, count := 2, firstId := UInt64.ofNat (Decimal.maxWord - 2) }
    let reads := [Text.utf8 "(55)JOB_TYPE:B,JOB_ID:18446744073709551613,JOB_SUCCEEDED:T\n".toList,
      Text.utf8 "(55)JOB_TYPE:B,JOB_ID:18446744073709551614,JOB_SUCCEEDED:F\n".toList]
    (submit .checked o { reads := reads } 0).failure = none ∧
      ∃ (written : Bytes) (packets : List Packet),
        (submit .checked o { reads := reads } 0).outlet = .sink none written ∧
        Decoder.start.feed written = (.start, packets.map .ok) ∧ packets.length = 2 := by
  intro o reads
  obtain ⟨written, packets, houtlet, hfeed, -, hlength, -, -, hends, -⟩ :=
    submit_requests .checked o reads none 0
  have hanswers : (answers (Link.items { reads := reads })).length = 2 := by
    decide +kernel
  refine ⟨hends.2 ⟨by decide, Nat.le_of_eq hanswers.symm⟩, written, packets, houtlet, hfeed, ?_⟩
  rw [hlength]
  decide

/-- The largest number is that of one job, and the options for it are read. But the end of the
numbers runs over, and none is asked for. With checks the program panics; without them the job is
said to be submitted, and its result is waited for until the other side ends. -/
theorem submit_requests_none :
    let o : Options := { firstId := UInt64.ofNat Decimal.maxWord }
    let checked := submit .checked o { reads := [] } 0
    let wrapping := submit .wrapping o { reads := [] } 0
    Options.read ["submit", "--first-id", "18446744073709551615", "--count", "1"] =
      .ok (o, ["submit"]) ∧
    1 ≤ o.count.toNat ∧ o.firstId.toNat + (o.count.toNat - 1) ≤ Decimal.maxWord ∧
    checked.output = [] ∧ checked.outlet = .sink none [] ∧
    checked.failure = some (.panicked .addOverflow) ∧
    wrapping.output = ["Submitted 1 job(s) of type A."] ∧ wrapping.outlet = .sink none [] ∧
    wrapping.failure = some (.closedEarly 0 1) := by
  decide +kernel

end JobBroker.Control
