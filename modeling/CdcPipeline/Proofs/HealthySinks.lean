import CdcPipeline.Model.Debezium
import CdcPipeline.Model.EsIndexer
import CdcPipeline.Model.Notifier

namespace CdcPipeline.Proofs.HealthySinks

open Library Text Model Debezium

/-- What a Redis that works answers: connections are made, and no command is refused. -/
def RedisWorks : (op : RedisOp) → RedisAns op → Prop
  | .contextUsable, _ => True
  | .redisConnect, r => r = .ok ()
  | .command _, reply => ∃ r, reply = some r ∧ ∀ str, r ≠ .error str
  | .log _, _ => True

/-- What an Elasticsearch that works answers; it reports a document that is not there to
be deleted. -/
def EsWorks : (op : HttpOp) → HttpAns op → Prop
  | .request (.put ..), r => EsIndexer.succeeded r.statusCode = true
  | .request (.delete _), r => EsIndexer.succeeded r.statusCode = true ∨ r.statusCode = 404
  | .log _, _ => True

/-- A record that carries one change of an order whose row has a status. -/
structure Change (record : Json) (id : Bytes) (image : Option Json) : Prop where
  shape : Shape record id image
  named : id ≠ []
  status : ∀ row, image = some row → ∃ s, row.member (bytes "status") = some (.str s)

theorem stringValue_status {row : Json} {s : Bytes}
    (h : row.member (bytes "status") = some (.str s)) (d : Bytes) :
    Record.stringValue row (bytes "status") d = .ok s := by
  cases row with
  | obj ms =>
    simp only [Json.member] at h
    simp only [Record.stringValue, h]
  | _ => exact absurd h (by simp [Json.member])

section Redis

variable {α : Type}

theorem returns_log (e : LogEvent) : (RedisProg.log e).Returns RedisWorks := fun _ _ => trivial

theorem returns_ensureConnected (name : Bytes) (connected : LogEvent) :
    (RedisProg.ensureConnected name connected).Returns RedisWorks := by
  intro usable _
  cases usable with
  | true => trivial
  | false =>
    rintro _ rfl
    exact fun _ _ => trivial

theorem returns_command (c : Command) (what : Bytes) {k : Reply → RedisProg α}
    (hk : ∀ r, (k r).Returns RedisWorks) :
    ((RedisProg.redisCommand c).bind fun reply => (RedisProg.checkReply what reply).bind k).Returns
      RedisWorks := by
  rintro _ ⟨r, rfl, hr⟩
  cases r with
  | error str => exact absurd rfl (hr str)
  | integer n => exact hk _
  | status s => exact hk _
  | string s => exact hk _
  | nil => exact hk _

end Redis

variable {record : Json} {id : Bytes} {image : Option Json}

theorem redisUpdater_returns (h : Change record id image) (key : Bytes) (offset : Nat) :
    (RedisUpdater.processRecord record key offset).Returns RedisWorks := by
  unfold RedisUpdater.processRecord
  cases image with
  | some row =>
    obtain ⟨hdata, hrow⟩ := h.shape.orderData_some
    obtain ⟨s, hs⟩ := h.status row rfl
    obtain ⟨t, ht⟩ := (Json.dump_ok_iff row).mpr hrow.utf8
    simp only [hdata, RedisUpdater.processUpsert, orderId_row hrow h.named, ht, Prog.ofExcept_ok,
      Prog.bind_eq, Prog.ret_bind, h.named, if_false]
    apply Prog.Returns.bind (returns_ensureConnected _ _)
    intro _
    apply returns_command
    intro r
    by_cases hr : r = .integer 0
    · simp only [hr, if_true]
      exact returns_log _
    · simp only [hr, if_false, stringValue_status hs, Prog.ofExcept_ok, Prog.ret_bind]
      exact returns_log _
  | none =>
    obtain ⟨hdata, row, hbefore, hrow⟩ := h.shape.orderData_none
    simp only [hdata, RedisUpdater.processDelete, hbefore, orderId_row hrow h.named,
      Prog.ofExcept_ok, Prog.bind_eq, Prog.ret_bind, h.named, if_false]
    apply Prog.Returns.bind (returns_ensureConnected _ _)
    intro _
    apply returns_command
    exact fun _ => returns_log _

theorem notifier_returns (h : Change record id image) (key : Bytes) (offset : Nat) :
    (Notifier.processRecord record key offset).Returns RedisWorks := by
  unfold Notifier.processRecord
  cases image with
  | none =>
    rw [h.shape.orderData_none.1]
    trivial
  | some row =>
    obtain ⟨hdata, hrow⟩ := h.shape.orderData_some
    obtain ⟨s, hs⟩ := h.status row rfl
    have hcustomer : ∃ c, Notifier.customerId row = .ok c := by
      unfold Notifier.customerId
      cases hu : row.nonNull (bytes "user_id") with
      | some v => exact Record.textOf_ok (Json.utf8_nonNull hrow.utf8 hu)
      | none =>
        cases hc : row.nonNull (bytes "customer_id") with
        | some v => exact Record.textOf_ok (Json.utf8_nonNull hrow.utf8 hc)
        | none => exact ⟨_, rfl⟩
    obtain ⟨c, hc⟩ := hcustomer
    simp only [hdata, Notifier.processRow, orderId_row hrow h.named, stringValue_status hs, hc,
      Prog.ofExcept_ok, Prog.bind_eq, Prog.ret_bind, h.named, if_false]
    split
    · apply Prog.Returns.bind (returns_ensureConnected _ _)
      intro _
      apply returns_command
      intro r
      by_cases hr : r = .status (bytes "OK")
      · simp only [hr, if_true]
        exact returns_log _
      · simp only [hr, if_false]
        exact returns_log _
    · trivial

theorem esIndexer_returns (h : Change record id image) (esUrl key : Bytes) (offset : Nat) :
    (EsIndexer.processRecord esUrl record key offset).Returns EsWorks := by
  unfold EsIndexer.processRecord
  cases image with
  | some row =>
    obtain ⟨hdata, hrow⟩ := h.shape.orderData_some
    obtain ⟨t, ht⟩ := (Json.dump_ok_iff row).mpr hrow.utf8
    simp only [hdata, EsIndexer.processIndex, orderId_row hrow h.named, ht, Prog.ofExcept_ok,
      Prog.bind_eq, Prog.ret_bind, h.named, if_false]
    intro r hr
    simp only [show EsIndexer.succeeded r.statusCode = true from hr, if_true, Prog.ret_bind]
    exact fun _ _ => trivial
  | none =>
    obtain ⟨hdata, row, hbefore, hrow⟩ := h.shape.orderData_none
    simp only [hdata, EsIndexer.processDelete, hbefore, orderId_row hrow h.named, Prog.ofExcept_ok,
      Prog.bind_eq, Prog.ret_bind, h.named, if_false]
    intro r hr
    simp only [Prog.ret_bind]
    by_cases hs : EsIndexer.succeeded r.statusCode = true
    · simp only [hs, if_true]
      exact fun _ _ => trivial
    · have h404 : r.statusCode = 404 := hr.resolve_left hs
      simp only [h404, ne_eq, not_true_eq_false, if_false]
      trivial

theorem sample_change (lsn : Nat) (bound : lsn < 2 ^ 53) :
    Change (sampleUpsert lsn bound).record sampleId (some sampleRow) where
  shape := .upsert sampleRow_row .plain rfl
  named := List.cons_ne_nil _ _
  status := by
    intro row h
    rw [← Option.some.inj h]
    exact ⟨bytes "SHIPPED", rfl⟩

/-- A Redis that accepts every command. -/
def serve : Handler RedisOp RedisAns Unit
  | .contextUsable, s => (true, s)
  | .redisConnect, s => (.ok (), s)
  | .command _, s => (some (.integer 1), s)
  | .log _, s => ((), s)

theorem serve_works (op : RedisOp) (s : Unit) : RedisWorks op (serve op s).1 := by
  cases op with
  | redisConnect => rfl
  | command c => exact ⟨_, rfl, nofun⟩
  | _ => trivial

end CdcPipeline.Proofs.HealthySinks
