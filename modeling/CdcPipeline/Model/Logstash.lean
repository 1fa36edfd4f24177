import CdcPipeline.Library.Json
import Mathlib.Logic.Function.Basic

namespace CdcPipeline.Model.Logstash

open Library Text

/-- The fields of an event. -/
abbrev Event := Bytes → Option Json

namespace Event

def empty : Event := fun _ => none

/-- `event.set(k, v)` -/
def set (e : Event) (m : Bytes × Json) : Event := Function.update e m.1 (some m.2)

/-- `msg.each { |k, v| event.set(k, v) }` -/
def setAll (e : Event) (ms : List (Bytes × Json)) : Event := ms.foldl set e

/-- `event.remove(k)` -/
def remove (e : Event) (k : Bytes) : Event := Function.update e k none

end Event

namespace Event

@[simp] theorem setAll_nil (e : Event) : e.setAll [] = e := rfl

@[simp] theorem setAll_cons (e : Event) (m : Bytes × Json) (ms : List (Bytes × Json)) :
    e.setAll (m :: ms) = (e.set m).setAll ms := rfl

theorem setAll_append (e : Event) (ms ns : List (Bytes × Json)) :
    e.setAll (ms ++ ns) = (e.setAll ms).setAll ns := List.foldl_append

@[simp] theorem set_self (e : Event) (m : Bytes × Json) : e.set m m.1 = some m.2 :=
  Function.update_self ..

theorem set_ne (e : Event) {m : Bytes × Json} {k : Bytes} (h : k ≠ m.1) : e.set m k = e k :=
  Function.update_of_ne h ..

theorem setAll_other {k : Bytes} {ms : List (Bytes × Json)} (h : k ∉ ms.map Prod.fst) (e : Event) :
    e.setAll ms k = e k := by
  induction ms generalizing e with
  | nil => rfl
  | cons m ms ih =>
    rw [List.map_cons, List.mem_cons, not_or] at h
    rw [setAll_cons, ih h.2, set_ne e h.1]

/-- A field is what some member has set, or what it was before. -/
theorem setAll_some {e : Event} {ms : List (Bytes × Json)} {k : Bytes} {v : Json}
    (h : e.setAll ms k = some v) : (k, v) ∈ ms ∨ e k = some v := by
  induction ms generalizing e with
  | nil => exact Or.inr h
  | cons m ms ih =>
    rw [setAll_cons] at h
    rcases ih h with hm | hm
    · exact Or.inl (List.mem_cons_of_mem m hm)
    · by_cases hk : k = m.1
      · rw [hk, set_self, Option.some.injEq] at hm
        subst hk hm
        exact Or.inl List.mem_cons_self
      · rw [set_ne e hk] at hm
        exact Or.inr hm

theorem setAll_member {ms : List (Bytes × Json)} (distinct : (ms.map Prod.fst).Nodup)
    {k : Bytes} {v : Json} (h : (k, v) ∈ ms) (e : Event) : e.setAll ms k = some v := by
  induction ms generalizing e with
  | nil => contradiction
  | cons m ms ih =>
    rw [List.map_cons, List.nodup_cons] at distinct
    rw [setAll_cons]
    rcases List.mem_cons.mp h with rfl | h
    · rw [setAll_other distinct.1, set_self]
    · exact ih distinct.2 h _

/-- The fields of one name depend on that name's alone. -/
theorem setAll_congr {e e' : Event} {k : Bytes} (h : e k = e' k) (ms : List (Bytes × Json)) :
    e.setAll ms k = e'.setAll ms k := by
  induction ms generalizing e e' with
  | nil => exact h
  | cons m ms ih =>
    refine ih ?_
    by_cases hk : k = m.1
    · rw [hk, set_self, set_self]
    · rw [set_ne e hk, set_ne e' hk, h]

/-- A field that is taken away again leaves no trace. -/
theorem remove_set {k : Bytes} {ms : List (Bytes × Json)} (h : k ∉ ms.map Prod.fst) {e : Event}
    (he : e k = none) (v : Json) : ((e.set (k, v)).setAll ms).remove k = e.setAll ms := by
  funext k'
  by_cases hk : k' = k
  · subst hk
    rw [remove, Function.update_self, setAll_other h, he]
  · rw [remove, Function.update_of_ne hk]
    exact setAll_congr (set_ne e hk) ms

end Event

/-- The `json_lines` codec: the members of a line's object are the fields of its event. -/
def decode : Json → Option Event
  | .obj ms => some (Event.empty.setAll ms)
  | _ => none

/-- The `ruby` filter: the members of a `message` that is a hash go to the root. -/
def flatten (e : Event) : Event :=
  match e (bytes "message") with
  | some (.obj ms) => (e.setAll ms).remove (bytes "message")
  | _ => e

theorem flatten_hash {e : Event} {ms : List (Bytes × Json)}
    (h : e (bytes "message") = some (.obj ms)) :
    flatten e = (e.setAll ms).remove (bytes "message") := by
  unfold flatten
  rw [h]

theorem flatten_cases (e : Event) :
    (∃ ms, e (bytes "message") = some (.obj ms) ∧
      flatten e = (e.setAll ms).remove (bytes "message")) ∨ flatten e = e := by
  unfold flatten
  split
  · rename_i ms h
    exact Or.inl ⟨ms, h, rfl⟩
  · exact Or.inr rfl

inductive LogType where
  | api | consumer | system
deriving DecidableEq

def apiEvents : List Bytes :=
  ["request_sent", "request_failed", "api_order_created", "api_order_status_updated",
    "api_cache_hit", "api_cache_miss"].map bytes

def consumerEvents : List Bytes :=
  ["redis_updated", "es_indexed", "email_notification_sent", "record_processed", "routed_to_dlq",
    "record_processing_failed", "redis_stale_event_ignored"].map bytes

/-- A field that is a string. -/
def Event.text (e : Event) (k : Bytes) : Option Bytes :=
  match e k with
  | some (.str s) => some s
  | _ => none

/-- `[event] in [...]` -/
def Event.isOneOf (e : Event) (names : List Bytes) : Bool :=
  (e.text (bytes "event")).any names.contains

/-- The `log_type` that the filter adds. -/
def logType (e : Event) : LogType :=
  if e.isOneOf apiEvents then .api
  else if e.isOneOf consumerEvents then .consumer
  else .system

/-- The daily index that the output writes to; `day` is `%{+YYYY.MM.dd}`. -/
def index (t : LogType) (day : Bytes) : Bytes :=
  match t with
  | .api => bytes "cdc-api-logs-" ++ day
  | .consumer => bytes "cdc-consumer-logs-" ++ day
  | .system => bytes "cdc-system-logs-" ++ day

end CdcPipeline.Model.Logstash
