import JobBroker.Control.Outcome
import JobBroker.Text.Json.Reader
/-!
A broker's answers over HTTP as the control program shows them. An answer that lacks a field, or
has one of another form, is not shown at all.
-/
namespace JobBroker.Control.Report

def rule : String := String.ofList (List.replicate 39 '═')

def titled (title : String) : List String := [rule, "  " ++ title, rule]

def rows (labels : List String) (numbers : List Nat) : List String :=
  List.zipWith (fun label n => label ++ Decimal.write n) labels numbers

def words? (names : List String) (j : JsonText) : Option (List Nat) := do
  (← j.record? names).mapM JsonText.word?

def overview? (j : JsonText) : Option (List String) := do
  let fields ← j.record?
    ["workers", "requesters", "in_flight", "pending_requests", "pending_completions", "totals"]
  let counts ← (fields.take 5).mapM JsonText.word?
  let totals ← words? ["requested", "delivered", "undeliverable", "rejected", "discarded"]
    (← fields[5]?)
  some (titled "Loadstar Coordinator Status" ++
    rows
      [ "  Workers             : ", "  Requesters          : ", "  Jobs in flight      : ",
        "  Pending requests    : ", "  Pending completions : " ] counts ++
    [""] ++
    rows
      [ "  Requested     : ", "  Delivered     : ", "  Undeliverable : ",
        "  Rejected      : ", "  Discarded     : " ] totals)

def number? (j : JsonText) : Option String := j.word?.map Decimal.write

def worker? (j : JsonText) : Option (List String) := do
  match ← j.record?
      [ "id", "peer", "specialty", "load", "outstanding", "queued", "completed",
        "connected_secs" ] with
  | [id, peer, specialty, load, outstanding, queued, completed, seconds] =>
    some
      [ "  ┌─ worker " ++ (← number? id),
        "  │  peer        : " ++ (← peer.text?),
        "  │  specialty   : " ++ (← specialty.text?),
        "  │  load        : " ++ (← number? load),
        "  │  outstanding : " ++ (← number? outstanding) ++ " (" ++ (← number? queued) ++ " queued)",
        "  │  completed   : " ++ (← number? completed),
        "  └─ uptime      : " ++ (← number? seconds) ++ "s" ]
  | _ => none

def requester? (j : JsonText) : Option (List String) := do
  match ← j.record? ["id", "peer", "requested", "completed", "queued", "connected_secs"] with
  | [id, peer, requested, completed, queued, seconds] =>
    some
      [ "  ┌─ requester " ++ (← number? id),
        "  │  peer      : " ++ (← peer.text?),
        "  │  requested : " ++ (← number? requested),
        "  │  completed : " ++ (← number? completed) ++ " (" ++ (← number? queued) ++ " queued)",
        "  └─ uptime    : " ++ (← number? seconds) ++ "s" ]
  | _ => none

def listing? (name title none : String) (one? : JsonText → Option (List String))
    (j : JsonText) : Option (List String) := do
  match ← j.record? [name] with
  | [entries] =>
    let entries ← entries.list? one?
    if entries.isEmpty then some [none]
    else some (titled s!"{title} ({Decimal.write entries.length})" ++ entries.flatten)
  | _ => Option.none

def message? (j : JsonText) : Option (List String) := do
  (← j.record? ["message"]).mapM JsonText.text?

def ofAnswer? (route : Route) (j : JsonText) : Option (List String) :=
  match route with
  | .status => overview? j
  | .workers => listing? "workers" "Workers" "No workers connected." worker? j
  | .requesters => listing? "requesters" "Requesters" "No requesters connected." requester? j
  | .shutdown => message? j

end JobBroker.Control.Report
