import CdcPipeline.Model.Dashboard
import CdcPipeline.Proofs.LogTemplates

namespace CdcPipeline.Proofs.DashboardCounts

open Library Text Model Logstash Dashboard LogTemplates

/-- Every card shows the number of lines with the event it is named for. -/
def CountsWhatItNames (stream : List Logged) : Prop :=
  dlqCount.shows (stream.map Logged.store) =
      some (stream.countP (fun l => l.line.name == some (bytes "routed_to_dlq"))) ∧
    idempotencyDedup.shows (stream.map Logged.store) =
      some (stream.countP (fun l =>
        l.line.name == some (bytes "email_notification_skipped_duplicate"))) ∧
    totalOrders.shows (stream.map Logged.store) =
      some (stream.countP (fun l => l.line.name == some (bytes "api_order_created")))

theorem event_text (at_ : Moment) (x : Line) : (x.event at_).text (bytes "event") = x.name := by
  rcases x with (_ | _) | c
  · rfl
  · rfl
  · have hevent : Event.empty.setAll (c.members at_) (bytes "event") = some (.str c.line.event) :=
      Event.setAll_member (members_distinct c at_).1
        (List.mem_append_right _ List.mem_cons_self) _
    rw [Line.event, Event.text, hevent]
    rfl

/-- The names of the events with their own index. -/
def routed (x : Line) (names : List Bytes) : Bool := x.name.any names.contains

theorem logType_event (at_ : Moment) (x : Line) : logType (x.event at_) =
    if routed x apiEvents then .api
    else if routed x consumerEvents then .consumer
    else .system := by
  unfold logType Event.isOneOf
  rw [event_text]
  rfl

/-- Days are behind the part of an index that a view's title spells out. -/
theorem covers_api (t : LogType) (day : Bytes) :
    DataView.covers ⟨bytes "cdc-api-logs", bytes "cdc-api-logs-*"⟩ (Logstash.index t day) =
      decide (t = .api) := by
  cases t <;> rfl

theorem covers_system (t : LogType) (day : Bytes) :
    DataView.covers ⟨bytes "cdc-system-logs", bytes "cdc-system-logs-*"⟩ (Logstash.index t day) =
      decide (t = .system) := by
  cases t <;> rfl

theorem shows_totalOrders (stream : List Logged) : totalOrders.shows (stream.map Logged.store) =
    some (stream.countP (fun l => routed l.line apiEvents)) := by
  have h : totalOrders.shows (stream.map Logged.store) =
      some ((stream.map Logged.store).countP (fun d =>
        DataView.covers ⟨bytes "cdc-api-logs", bytes "cdc-api-logs-*"⟩ d.index && true)) := rfl
  rw [h, List.countP_map]
  congr 2
  funext l
  simp only [Function.comp_apply, Logged.store, covers_api, logType_event, Bool.and_true]
  cases routed l.line apiEvents <;> cases routed l.line consumerEvents <;> rfl

/-- A count over the system index, of an event by its name. -/
theorem shows_system {c : Card} {name : Bytes} (hv : c.view = bytes "cdc-system-logs")
    (hq : c.query = .keyword (bytes "event") name) (stream : List Logged) :
    c.shows (stream.map Logged.store) = some (stream.countP (fun l =>
      !routed l.line apiEvents && !routed l.line consumerEvents && l.line.name == some name)) := by
  obtain ⟨title, view, query⟩ := c
  subst hv hq
  have h : Card.shows ⟨title, bytes "cdc-system-logs", .keyword (bytes "event") name⟩
      (stream.map Logged.store) = some ((stream.map Logged.store).countP (fun d =>
        DataView.covers ⟨bytes "cdc-system-logs", bytes "cdc-system-logs-*"⟩ d.index &&
          (d.fields.text (bytes "event") == some name))) := rfl
  rw [h, List.countP_map]
  congr 2
  funext l
  simp only [Function.comp_apply, Logged.store, covers_system, logType_event, event_text]
  cases routed l.line apiEvents <;> cases routed l.line consumerEvents <;> rfl

/-- An event with its own index is not in the system's. -/
theorem shows_routed {c : Card} {name : Bytes} (hv : c.view = bytes "cdc-system-logs")
    (hq : c.query = .keyword (bytes "event") name) (hn : consumerEvents.contains name = true)
    (stream : List Logged) : c.shows (stream.map Logged.store) = some 0 := by
  rw [shows_system hv hq]
  congr 1
  rw [List.countP_eq_zero]
  intro l _ h
  simp only [Bool.and_eq_true, Bool.not_eq_true', beq_iff_eq] at h
  obtain ⟨⟨-, hc⟩, hname⟩ := h
  rw [routed, hname] at hc
  exact absurd hn (by simpa using hc)

theorem shows_unrouted {c : Card} {name : Bytes} (hv : c.view = bytes "cdc-system-logs")
    (hq : c.query = .keyword (bytes "event") name) (ha : apiEvents.contains name = false)
    (hn : consumerEvents.contains name = false) (stream : List Logged) :
    c.shows (stream.map Logged.store) =
      some (stream.countP (fun l => l.line.name == some name)) := by
  rw [shows_system hv hq]
  congr 2
  funext l
  by_cases h : l.line.name = some name
  · simp only [routed, h, Option.any_some, ha, hn, Bool.not_false, Bool.true_and]
  · simp [h]

/-- Of two tests, one weaker than the other, as many elements pass if no more pass the weaker. -/
theorem countP_eq_iff {α : Type} {p q : α → Bool} (h : ∀ x, p x = true → q x = true)
    (xs : List α) : xs.countP q = xs.countP p ↔ ∀ x ∈ xs, q x = true → p x = true := by
  induction xs with
  | nil => simp
  | cons x xs ih =>
    have hle := List.countP_mono_left (l := xs) fun x _ => h x
    have hx := h x
    rw [List.forall_mem_cons, ← ih, List.countP_cons, List.countP_cons]
    cases hp : p x <;> cases hq : q x
    · simp
    · simp only [if_true, Bool.false_eq_true, if_false, imp_false, not_true_eq_false, false_and,
        iff_false]
      omega
    · rw [hp, hq] at hx
      exact absurd (hx rfl) (by decide)
    · simp

/-- The DLQ card needs a stream without dead letters, and the orders card one without any
other event of the API's index; the replays are counted where they are. -/
theorem counts_iff (stream : List Logged) : CountsWhatItNames stream ↔ ∀ l ∈ stream,
    l.line.name ≠ some (bytes "routed_to_dlq") ∧
      ∀ name ∈ apiEvents, l.line.name = some name → name = bytes "api_order_created" := by
  have hdlq := shows_routed (c := dlqCount) rfl rfl (by decide) stream
  have hreplays := shows_unrouted (c := idempotencyDedup) rfl rfl (by decide) (by decide) stream
  have hzero : 0 = stream.countP (fun l => l.line.name == some (bytes "routed_to_dlq")) ↔
      ∀ l ∈ stream, l.line.name ≠ some (bytes "routed_to_dlq") := by
    rw [eq_comm, List.countP_eq_zero]
    simp only [beq_iff_eq, ne_eq]
  have horders := countP_eq_iff
    (p := fun l : Logged => l.line.name == some (bytes "api_order_created"))
    (q := fun l => routed l.line apiEvents) (fun l h => by
      rw [routed, beq_iff_eq.mp h]
      decide) stream
  rw [CountsWhatItNames, hdlq, hreplays, shows_totalOrders, Option.some.injEq, Option.some.injEq,
    Option.some.injEq, hzero, horders]
  simp only [beq_iff_eq]
  constructor
  · rintro ⟨hd, -, ho⟩ l hl
    refine ⟨hd l hl, fun name hn he => ?_⟩
    have hr : routed l.line apiEvents = true := by
      rw [routed, he]
      exact List.contains_iff_mem.mpr hn
    rw [ho l hl hr, Option.some.injEq] at he
    exact he.symm
  · intro h
    refine ⟨fun l hl => (h l hl).1, trivial, fun l hl hr => ?_⟩
    cases he : l.line.name with
    | none => rw [routed, he] at hr; contradiction
    | some name =>
      rw [routed, he] at hr
      rw [(h l hl).2 name (List.contains_iff_mem.mp hr) he]

/-- One dead letter, and the card for dead letters still shows none. -/
theorem dead_letter_hidden : ¬ CountsWhatItNames
    [⟨⟨bytes "2026-01-02T03:04:05.000006+00:00", by decide⟩, bytes "2026.01.02",
      .call (.consumer (.routedToDlq (bytes "RedisUpdater") (bytes "dbserver1.public.orders.dlq") 7
        (bytes "Payload deserialization failed")))⟩] := by
  rintro ⟨h, -⟩
  exact absurd h (by decide)

end CdcPipeline.Proofs.DashboardCounts
