import CdcPipeline.Model.Debezium
import CdcPipeline.Model.Execution

namespace CdcPipeline.Model

open Library Text

/-- What happens in a run of RedisUpdater: it is given an event, or time passes. -/
inductive Happening where
  | event (e : Debezium.Event) (key : Bytes) (offset : Nat)
  | tick (elapsed : Nat)

/-- A run so far: the events it was given and those Redis accepted, the newest first. -/
structure UpdaterRun where
  redis : Redis
  delivered : List Debezium.Event
  accepted : List Debezium.Event

namespace UpdaterRun

def start (now : Nat) : UpdaterRun := ⟨Redis.empty now, [], []⟩

def next (s : UpdaterRun) : Happening → UpdaterRun
  | .event e key offset =>
    { redis := (Exchange.process e.record key offset s.redis).2.redis
      delivered := e :: s.delivered
      accepted := if Exchange.accepts e.record key offset s.redis then e :: s.accepted
        else s.accepted }
  | .tick elapsed => { s with redis := s.redis.tick elapsed }

def after (now : Nat) (hs : List Happening) : UpdaterRun := hs.foldl next (start now)

end UpdaterRun

end CdcPipeline.Model
