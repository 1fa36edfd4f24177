import CdcPipeline.Library.Lease
import CdcPipeline.Model.Fleet
import CdcPipeline.Model.Notifier

namespace CdcPipeline.Model

open Library Text

/-- An email that was sent: for which order and status, on which won `SET … NX`, and
how many had been won by then. -/
structure Dispatch where
  order : Bytes
  status : Bytes
  claim : Option Nat
  after : Nat

/-- An email that was not sent because the key was there. -/
structure Skip where
  order : Bytes
  status : Bytes

/-- Redis as the notifiers use it, with a record of how it decided each `SET … NX`, of
the win whose reply each of them holds, and of what was sent and skipped. -/
structure Mail (ι : Type) where
  net : RedisNet
  wins : List (Lease.Request Bytes)
  losses : List (Lease.Request Bytes)
  held : ι → Option Nat
  sent : List Dispatch
  skipped : List Skip

namespace Mail

variable {ι : Type} [DecidableEq ι]

def empty (now : Nat) : Mail ι := ⟨⟨Redis.empty now, []⟩, [], [], fun _ => none, [], []⟩

def record (s : Mail ι) : Command → Reply → Mail ι
  | .setNx key _ _, .status _ => { s with wins := s.wins ++ [⟨key, s.net.redis.now⟩] }
  | .setNx key _ _, .nil => { s with losses := s.losses ++ [⟨key, s.net.redis.now⟩] }
  | _, _ => s

/-- Redis executes a command. -/
def execute (s : Mail ι) (c : Command) : Mail ι :=
  { record s c (Redis.exec c s.net.redis).1 with net := s.net.exec c }

/-- An OK that reaches its client is the newest win. -/
def hold (s : Mail ι) (i : ι) (reply : Reply) : Mail ι :=
  if reply = .status (bytes "OK") then
    { s with held := Function.update s.held i (some (s.wins.length - 1)) }
  else s

inductive Answers (i : ι) (s : Mail ι) (c : Command) : Option Reply → Mail ι → Prop where
  | replied : Answers i s c (some (Redis.exec c s.net.redis).1)
      ((s.execute c).hold i (Redis.exec c s.net.redis).1)
  | replyLost : Answers i s c none (s.execute c)
  | notExecuted : Answers i s c none s
  | late : Answers i s c none { s with net := { s.net with late := c :: s.net.late } }
  | refused (str : Bytes) : Answers i s c (some (.error str)) s

/-- Sending an email uses up the win it was sent on. -/
def send (s : Mail ι) (i : ι) (order status : Bytes) : Mail ι :=
  { s with
    sent := s.sent ++ [⟨order, status, s.held i, s.wins.length⟩]
    held := Function.update s.held i none }

def skip (s : Mail ι) (order status : Bytes) : Mail ι :=
  { s with skipped := s.skipped ++ [⟨order, status⟩] }

def logged (s : Mail ι) (i : ι) : LogEvent → Mail ι
  | .emailNotificationSent _ order status _ => s.send i order status
  | .emailNotificationSkippedDuplicate order status _ => s.skip order status
  | _ => s

def call (i : ι) : (op : RedisOp) → Mail ι → RedisAns op → Mail ι → Prop
  | .command c, s, reply, s' => Answers i s c reply s'
  | .log e, s, _, s' => s' = s.logged i e
  | _, s, _, s' => s' = s

/-- The clock goes on, and late commands arrive. -/
inductive Env (s : Mail ι) : Mail ι → Prop where
  | tick (elapsed : Nat) : Env s { s with net := { s.net with redis := s.net.redis.tick elapsed } }
  | arrives {c} (sent : c ∈ s.net.late) :
      Env s (execute { s with net := { s.net with late := s.net.late.erase c } } c)

/-- A crash loses the win that was held. -/
def crashed (s : Mail ι) (i : ι) : Mail ι := { s with held := Function.update s.held i none }

end Mail

end CdcPipeline.Model
