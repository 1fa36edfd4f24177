import Mathlib.Data.List.Induction
import CdcPipeline.Library.Gate
import CdcPipeline.Model.UpdaterRun
import CdcPipeline.Proofs.RecordEffect

namespace CdcPipeline.Proofs.MonotoneVersions

open Library Text Model Debezium RedisUpdater RedisCache ValueGuard RecordEffect

def ofOrder (id : Bytes) (es : List Event) : List Event := es.filter (fun e => decide (e.id = id))

/-- The versions of a list of events of one order. -/
def versions (id : Bytes) (es : List Event) : List Nat := (ofOrder id es).map Event.lsn

/-- The versions accepted for each order increase. -/
def Increasing (s : UpdaterRun) : Prop :=
  ∀ id, (versions id s.accepted).Pairwise (fun newer older => older < newer)

/-- What the server still shows of the order's last accepted version. -/
def gate (s : UpdaterRun) (id : Bytes) : Gate Nat where
  held := if (s.redis.live (lsnKey id)).isSome then (versions id s.accepted).head? else none
  passed := versions id s.accepted

/-- The run, with its events read as executions. -/
def executed (s : UpdaterRun) : Executed := ⟨s.redis, s.accepted.map execution⟩

theorem last_executed (s : UpdaterRun) (id : Bytes) :
    (executed s).last id = (ofOrder id s.accepted).head?.map execution := by
  rw [Executed.last, executed, List.find?_map, ofOrder, List.head?_filter]
  rfl

/-- Order ids cannot be mistaken for another's guard. -/
theorem uuid_separate : Separate (fun id => isUuid id = true) := by
  intro a b ha hb he
  have hl := congrArg List.length he
  rw [List.length_append, uuid_length ha, uuid_length hb] at hl
  have h4 : (bytes ":lsn").length = 4 := rfl
  omega

structure Sync (s : UpdaterRun) : Prop where
  reach : Executed.Reach (fun id => isUuid id = true) (executed s)
  known : ∀ e ∈ s.accepted, e ∈ s.delivered
  sound : ∀ id, isUuid id = true → (gate s id).Sound (versions id s.delivered)

theorem Sync.guarded {s : UpdaterRun} (h : Sync s) {id : Bytes} (hid : isUuid id = true) :
    Guarded s.redis id ((ofOrder id s.accepted).head?.map execution) := by
  have hg := reach_guarded uuid_separate hid h.reach
  rw [last_executed] at hg
  exact hg

def inserted : Event := sampleUpsert 1 one_bound

end CdcPipeline.Proofs.MonotoneVersions
