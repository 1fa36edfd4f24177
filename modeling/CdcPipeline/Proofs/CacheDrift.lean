import CdcPipeline.Model.OrderRow
import CdcPipeline.Proofs.CacheInvisible

namespace CdcPipeline.Proofs.CacheDrift

open Library Text Model Debezium RedisUpdater ValueGuard RecordEffect ApiServer ApiPrograms
  CacheInvisible

/-- The bodies are documents that differ at most in their member `source`. -/
def SameButSource (b b' : Bytes) : Prop :=
  ∃ d d' : Json, d.dump = .ok b ∧ d'.dump = .ok b' ∧
    ∀ k, k ≠ bytes "source" → d.member k = d'.member k

/-- Redis as the call that was given the event has left it. -/
def applied (e : Event) (key : Bytes) (offset : Nat) (r : Redis) : Redis :=
  (Exchange.process e.record key offset r).2.redis

/-- A request that finds the entry of this key in Redis. -/
def Hits (r : Redis) (key : Bytes) (E : Backends) : Prop :=
  ∃ text, r.get key = some text ∧ E.reply key = some (.string text)

section FromRedis

variable {lib : Conversions} {value : Json → Prop} {row : OrderRow} {enc : ColumnEncoding}

/-- What is stored for a row is the text of its image. -/
theorem applied_get {e : Event} {key : Bytes} {offset : Nat} {r : Redis}
    (himage : e.image = some (row.image enc))
    (accepted : Exchange.accepts e.record key offset r = true) :
    ∃ text, (row.image enc).dump = .ok text ∧
      (applied e key offset r).get (redisKey e.id) = some text := by
  obtain ⟨text, hd, ht⟩ := e.dump_image himage
  refine ⟨text, hd, ?_⟩
  obtain ⟨x, he, hr⟩ := (accepts_iff _ _ _ _).mp accepted
  rw [effect_event] at he
  obtain rfl := Option.some.inj (Except.ok.inj he)
  unfold applied
  rw [process_redis, effect_event]
  simp only
  rw [exec_command, hr]
  simp only [Bool.false_eq_true, if_false, written, execution, ht]
  rw [Redis.get_setEx_ne _ _ _ redisKey_ne_own]
  exact Redis.get_setEx_self _ _ _ _

end FromRedis

/-- Both requests are answered with 200, and with the same body up to `source`. -/
def Agree (lib : Conversions) (orderId : Bytes) (hit miss : Backends) : Prop :=
  ∃ b b' stmts s, respond (getOrder lib orderId) hit ⟨true, stmts⟩ = .ok ⟨200, b⟩ ∧
    respond (postgresAlone lib orderId) miss s = .ok ⟨200, b'⟩ ∧ SameButSource b b'

theorem noNul_uuid {id : Bytes} (h : isUuid id = true) : 0 ∉ id := by
  intro h0
  simp only [isUuid, Bool.and_eq_true] at h
  have hz := List.all_eq_true.mp h.2 0 h0
  contradiction

/-- For no row do they agree: the body from Redis has all its columns, and the one from
Postgres, whatever that answers, has no `created_at`. -/
theorem never_agree {lib : Conversions} {value : Json → Prop}
    (library : JsonLibrary lib.parse value) (enc : ColumnEncoding) (row : OrderRow) {e : Event}
    (isValue : value e.record) (himage : e.image = some (row.image enc)) (key : Bytes)
    (offset : Nat) {r : Redis} (accepted : Exchange.accepts e.record key offset r = true)
    {hit : Backends} (hhit : Hits (applied e key offset r) (bytes "order:" ++ e.id) hit)
    (miss : Backends) : ¬ Agree lib e.id hit miss := by
  rintro ⟨b, b', stmts, s, hb, hb', d, d', hd, hd', hsame⟩
  obtain ⟨text, hget, hreply⟩ := hhit
  obtain ⟨stored, himg, hstored⟩ := applied_get himage accepted
  obtain rfl : stored = text := Option.some.inj (hstored.symm.trans hget)
  have hvalue : value (row.image enc) :=
    (row_value library isValue (e.orderData_upsert himage).1).1
  obtain ⟨body, hbody, hresp⟩ := getOrder_hit (noNul_uuid e.uuid) hreply himg
    (library.reads _ stored hvalue himg) stmts
  obtain rfl : body = b := by
    have he := Except.ok.inj (hresp.symm.trans hb)
    exact (Response.mk.inj he).2
  obtain ⟨doc, hdoc, hnone⟩ := postgres_body hb'
  obtain rfl := Json.dump_injective hd hbody
  obtain rfl := Json.dump_injective hd' hdoc
  have hcreated := hsame (bytes "created_at") (by decide)
  rw [hnone, Json.member, Json.lookup_insertMember] at hcreated
  contradiction

def sampleOrder : OrderRow where
  id := sampleId
  userId := bytes "u"
  totalAmount := bytes "19.99"
  status := bytes "CREATED"
  items := bytes "[]"
  createdAt := none
  updatedAt := none

/-- Numerics as strings, and missing times as nulls. -/
def sampleEncoding : ColumnEncoding := ⟨.str, fun _ => .null⟩

theorem sampleOrder_row : Row sampleId (sampleOrder.image sampleEncoding) := ⟨rfl, rfl, by decide⟩

def sampleEvent : Event where
  record := .obj [(bytes "after", sampleOrder.image sampleEncoding),
    (bytes "op", .str (bytes "c")), (bytes "source", sampleSource 1)]
  id := sampleId
  lsn := 1
  image := some (sampleOrder.image sampleEncoding)
  uuid := sampleId_uuid
  bound := one_bound
  source := ⟨sampleSource 1, .int 1, rfl, rfl, rfl, .number⟩
  shape := .upsert sampleOrder_row .plain rfl

theorem sample_image : sampleEvent.image = some (sampleOrder.image sampleEncoding) := rfl

theorem sample_accepted : Exchange.accepts sampleEvent.record [] 0 (Redis.empty 0) = true :=
  (accepts_iff _ _ _ _).mpr ⟨execution sampleEvent, effect_event _ _, rfl⟩

theorem amount_chars : (bytes "19.99").all isNumberByte = true := by decide

theorem amount_float :
    (bytes "19.99").any (fun b => b = 46 || b = 69 || b = 101) = true := by decide

/-- The conversions of the values above. -/
def orderConversions : Conversions where
  parse := sampleConversions.parse
  asDouble _ := .ok ⟨bytes "19.99", amount_chars, amount_float⟩
  nullError := bytes "null"
  formatDouble _ := sampleDecimal

/-- Redis after the event, and Postgres with the row. -/
def sampleRequest : Backends where
  reply key := some (((applied sampleEvent [] 0 (Redis.empty 0)).get key).elim .nil .string)
  rows _ := .ok [sampleOrder.selected]
  draws := sampleDraws
  committed := .ok ()

theorem sample_hits :
    Hits (applied sampleEvent [] 0 (Redis.empty 0)) (bytes "order:" ++ sampleEvent.id)
      sampleRequest := by
  obtain ⟨text, -, hget⟩ := applied_get sample_image sample_accepted
  have hkey : bytes "order:" ++ sampleEvent.id = redisKey sampleEvent.id := rfl
  refine ⟨text, hget, ?_⟩
  simp only [sampleRequest, hkey, hget, Option.elim_some]

theorem order_library : JsonLibrary orderConversions.parse (fun _ => True) := sample_library

theorem never_agree_once : ¬ Agree orderConversions sampleEvent.id sampleRequest sampleRequest :=
  never_agree order_library sampleEncoding sampleOrder trivial
    sample_image [] 0 sample_accepted sample_hits sampleRequest

def redisDocument : Json :=
  .obj [(bytes "created_at", .null), (bytes "id", .str sampleId),
    (bytes "items_jsonb", .str (bytes "[]")), (bytes "source", .str (bytes "redis")),
    (bytes "status", .str (bytes "CREATED")), (bytes "total_amount", .str (bytes "19.99")),
    (bytes "updated_at", .null), (bytes "user_id", .str (bytes "u"))]

def postgresDocument : Json :=
  .obj [(bytes "id", .str sampleId), (bytes "items_jsonb", .arr []),
    (bytes "source", .str (bytes "postgres")), (bytes "status", .str (bytes "CREATED")),
    (bytes "total_amount", .float ⟨bytes "19.99", amount_chars, amount_float⟩),
    (bytes "user_id", .str (bytes "u"))]

theorem sample_hit : ∃ b, redisDocument.dump = .ok b ∧
    respond (getOrder orderConversions sampleId) sampleRequest ⟨true, []⟩ = .ok ⟨200, b⟩ := by
  obtain ⟨text, hd, hget⟩ := applied_get sample_image sample_accepted
  obtain ⟨text', hget', hreply⟩ := sample_hits
  obtain rfl := Option.some.inj (hget.symm.trans hget')
  exact getOrder_hit (noNul_uuid sampleId_uuid) hreply hd (order_library.reads _ _ trivial hd) []

theorem sample_miss : ∃ b, postgresDocument.dump = .ok b ∧
    respond (postgresAlone orderConversions sampleId) sampleRequest ⟨true, []⟩ = .ok ⟨200, b⟩ :=
  ⟨_, rfl, rfl⟩

/-- The two requests for it are both answered, and their bodies differ in the items too. -/
theorem cache_drifts : ∃ b b',
    respond (getOrder orderConversions sampleId) sampleRequest ⟨true, []⟩ = .ok ⟨200, b⟩ ∧
    respond (postgresAlone orderConversions sampleId) sampleRequest ⟨true, []⟩ = .ok ⟨200, b'⟩ ∧
    ¬ SameButSource b b' := by
  obtain ⟨b, hb, hhit⟩ := sample_hit
  obtain ⟨b', hb', hmiss⟩ := sample_miss
  refine ⟨b, b', hhit, hmiss, ?_⟩
  rintro ⟨d, d', hd, hd', hsame⟩
  obtain rfl := Json.dump_injective hd hb
  obtain rfl := Json.dump_injective hd' hb'
  have hitems := hsame (bytes "items_jsonb") (by decide)
  cases hitems

end CdcPipeline.Proofs.CacheDrift
