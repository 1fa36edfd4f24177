import CdcPipeline.Model.RedisUpdater

namespace CdcPipeline.Model

open Library Text

/-- One execution of a script for an order: the upsert of a value, or the delete. -/
structure Execution where
  id : Bytes
  lsn : Int
  value : Option Bytes

def Execution.command (x : Execution) : Command :=
  match x.value with
  | some v => RedisUpdater.upsertCommand x.id v x.lsn
  | none => RedisUpdater.delCommand x.id x.lsn

/-- Redis, and the executions its scripts accepted, the newest first. -/
structure Executed where
  redis : Redis
  accepted : List Execution

namespace Executed

def empty (now : Nat) : Executed := ⟨Redis.empty now, []⟩

/-- A script that returns one has accepted its arguments. -/
def execute (s : Executed) (x : Execution) : Executed where
  redis := (Redis.exec x.command s.redis).2
  accepted := if (Redis.exec x.command s.redis).1 = .integer 1 then x :: s.accepted else s.accepted

def tick (s : Executed) (elapsed : Nat) : Executed := { s with redis := s.redis.tick elapsed }

def sweep (s : Executed) (k : Bytes) : Executed := { s with redis := s.redis.del k }

/-- A script runs, time passes, or the server deletes a key that has expired. -/
inductive Step (ids : Bytes → Prop) (s : Executed) : Executed → Prop where
  | execute {x} (known : ids x.id) : Step ids s (s.execute x)
  | tick (elapsed : Nat) : Step ids s (s.tick elapsed)
  | expire {k} (gone : s.redis.live k = none) : Step ids s (s.sweep k)

inductive Reach (ids : Bytes → Prop) : Executed → Prop where
  | empty (now : Nat) : Reach ids (empty now)
  | step {s s'} (before : Reach ids s) (step : Step ids s s') : Reach ids s'

/-- The last execution that was accepted for an order. -/
def last (s : Executed) (id : Bytes) : Option Execution :=
  s.accepted.find? (fun x => decide (x.id = id))

end Executed

/-- Redis, and the replies it has given, the newest first. -/
structure Exchange where
  redis : Redis
  replies : List Reply

namespace Exchange

def answer : Handler RedisOp RedisAns Exchange
  | .contextUsable, s => (true, s)
  | .redisConnect, s => (.ok (), s)
  | .command c, s => (some (Redis.exec c s.redis).1,
      ⟨(Redis.exec c s.redis).2, (Redis.exec c s.redis).1 :: s.replies⟩)
  | .log _, s => ((), s)

/-- What one call of `ProcessRecord` returns or throws, and what it does to Redis. -/
def process (record : Json) (key : Bytes) (offset : Nat) (r : Redis) :
    Except Bytes Unit × Exchange :=
  (RedisUpdater.processRecord record key offset).run answer ⟨r, []⟩

/-- One of the call's scripts returned one. -/
def accepts (record : Json) (key : Bytes) (offset : Nat) (r : Redis) : Bool :=
  decide (Reply.integer 1 ∈ (process record key offset r).2.replies)

/-- The states of Redis that calls of `ProcessRecord` lead to, with records of which all
that is known is that they are values of the JSON library. -/
inductive Reach (value : Json → Prop) : Redis → Prop where
  | empty (now : Nat) : Reach value (Redis.empty now)
  | process {r record} (before : Reach value r) (isValue : value record) (key : Bytes)
      (offset : Nat) : Reach value (process record key offset r).2.redis
  | tick {r} (before : Reach value r) (elapsed : Nat) : Reach value (r.tick elapsed)
  | expire {r k} (before : Reach value r) (gone : r.live k = none) : Reach value (r.del k)

end Exchange

end CdcPipeline.Model
