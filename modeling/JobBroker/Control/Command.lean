import JobBroker.Status
/-!
The commands of the control program, and the text that explains them.
-/
namespace JobBroker.Control

inductive Command where
  /-- Ask a broker over HTTP, and show the answer. -/
  | ask (route : Route)
  | submit
  | worker
  | help
  deriving DecidableEq, Repr

/-- The command that the words of a command line name. Without words the state is asked for. -/
def Command.ofWords? : List String → Option Command
  | [] | ["status"] => some (.ask .status)
  | ["workers"] => some (.ask .workers)
  | ["requesters"] => some (.ask .requesters)
  | ["shutdown"] => some (.ask .shutdown)
  | ["submit"] => some .submit
  | ["worker"] => some .worker
  | ["help"] | ["--help"] | ["-h"] => some .help
  | _ => none

def usage : List String :=
  [ "loadstar-ctl — loadstar coordinator control",
    "",
    "USAGE:",
    "  loadstar-ctl [--api-port <port>] <command>",
    "",
    "COMMANDS:",
    "  status                 Coordinator totals and queue depths",
    "  workers                Connected workers and their load",
    "  requesters             Connected requesters",
    "  shutdown               Stop the coordinator",
    "  submit                 Act as a requester and print each result",
    "      --host <host> --port <port> --type <A|B> --count <n> [--first-id <id>]",
    "  worker                 Run a reference worker",
    "      --host <host> --port <port> --type <A|B> [--fast-ms <ms>] [--slow-ms <ms>]",
    "",
    "OPTIONS:",
    "  --api-port <port>      Status API port (default: 30080)" ]

end JobBroker.Control
