import CdcPipeline.Proofs.ClientView
import CdcPipeline.Proofs.DualStore

namespace CdcPipeline.Proofs.PipelineConverges

open Library Text Replay History Model Debezium ApiProcess KafkaConsumerBase ApiServer ServedOrders
  GeneratedOrders ApiOutline ServedHistory ClientView DualStore

section Writes

open OrderStore

variable {t : Table}

/-- A table is what its writes leave, over what was there. -/
theorem replay_writes (hk : Keyed t) (xs : List (StoreOp × StoreAns)) (id : Bytes) :
    replay OrderStore.step t xs id =
      (writes t (xs.map Prod.fst)).foldl (overwrite (fun row => some row.id) id) (t id) := by
  induction xs generalizing t with
  | nil => rfl
  | cons x xs ih =>
    change replay OrderStore.step (OrderStore.step x.1 t).2 xs id = _
    rw [ih (step_keyed hk x.1), step_written hk, List.map_cons, writes, List.foldl_append]
    cases written x.1 t with
    | none => rfl
    | some row => simp [overwrite]

/-- An order has the last row that was written for it. -/
theorem replay_empty (xs : List (StoreOp × StoreAns)) (id : Bytes) :
    replay OrderStore.step OrderStore.empty xs id =
      last (fun row : OrderRow => some row.id) id (writes OrderStore.empty (xs.map Prod.fst)) :=
  replay_writes keyed_empty xs id

end Writes

/-- The row image that an entry carries. -/
def image : LogEntry → Option Json
  | .change _ _ e => e.image
  | .tombstone _ => none

/-- An order's events are the rows written for it, in the order of the writes. -/
structure Captured (enc : ColumnEncoding) (entries : Nat → List LogEntry) (rows : List OrderRow) :
    Prop where
  images : ∀ p id, Local entries p id →
    ((entries p).filter fun x => x.order = some id).map image =
      (rows.filter fun row => some row.id = some id).map fun row => some (row.image enc)

variable {enc : ColumnEncoding} {entries : Nat → List LogEntry} {rows : List OrderRow} {p : Nat}
  {id : Bytes}

/-- The last of an order's events carries its last row. -/
theorem last_captured (h : Captured enc entries rows) (home : Local entries p id) :
    (last LogEntry.order id (entries p)).map image =
      (last (fun row : OrderRow => some row.id) id rows).map fun row => some (row.image enc) := by
  rw [last_eq_getLast, last_eq_getLast, ← List.getLast?_map, ← List.getLast?_map,
    h.images p id home]

theorem text_image {x : LogEntry} {row : Json} (h : image x = some row) :
    ∃ text, row.dump = .ok text ∧ x.text = some text := by
  cases x with
  | change key payload e => exact e.dump_image h
  | tombstone key => cases h

/-- Every order has a partition to itself. -/
theorem local_exists {parse : Bytes → Except Bytes Json} {serdes : Bytes → AvroResult → Prop}
    (hw : WellFormed entries parse serdes) (id : Bytes) : ∃ p, Local entries p id := by
  by_cases h : ∃ p, ∃ x ∈ entries p, x.order = some id
  · obtain ⟨p, x, hx, hid⟩ := h
    exact ⟨p, hw.home p x id hx hid⟩
  · exact ⟨0, fun q _ x hx hid => h ⟨q, x, hx, hid⟩⟩

/-- Both stores have the row's image in its text form, or neither has anything. -/
def Mirrored (enc : ColumnEncoding) (row : Option OrderRow) (cached indexed : Option Bytes) :
    Prop :=
  match row with
  | some row => ∃ text, (row.image enc).dump = .ok text ∧ cached = some text ∧ indexed = some text
  | none => cached = none ∧ indexed = none

section Rest

variable {ι κ : Type} [DecidableEq ι] [DecidableEq κ]

/-- The API at any point of a run, the log that was captured up to there, and both consumers
at the end of that log. Their stores were empty, no key has expired, and every call to a store
took effect before it returned or not at all. -/
structure Rested (E : ApiProcess.Setting κ) (enc : ColumnEncoding) (topic esUrl : Bytes)
    (parse : Bytes → Except Bytes Json) (serdes : Bytes → AvroResult → Prop)
    (entries : Nat → List LogEntry)
    (api : Machine.Config (Thread ι κ) (ProcessOp κ) ProcessAns Exn Point (ApiProcess ι κ))
    (cache : Machine.Config Unit (RunOp RedisOp) (RunAns RedisAns) Bytes Node (World RedisNet))
    (index : Machine.Config Unit (RunOp HttpOp) (RunAns HttpAns) Bytes Node (World Documents)) :
    Prop where
  served : (machine E).Reach (fresh OrderStore.empty) api
  captured : Captured enc entries
    (OrderStore.writes OrderStore.empty ((effects api.shared.history).map Prod.fst))
  wellFormed : WellFormed entries parse serdes
  cached : ∃ producer now, ((Broker.machine (redisSetting topic entries serdes)
    (RedisUpdater.consumer topic parse)).restrict onlyTombstonesDiverted).Reach
      (Broker.fresh producer ⟨Redis.empty now, []⟩) cache
  indexed : ∃ producer, ((Broker.machine (esSetting topic entries serdes)
    (EsIndexer.consumer esUrl topic parse)).restrict onlyTombstonesDiverted).Reach
      (Broker.fresh producer Documents.empty) index
  cacheDone : Consumed entries cache.shared
  indexDone : Consumed entries index.shared

variable {E : ApiProcess.Setting κ} {enc : ColumnEncoding} {topic esUrl : Bytes}
  {parse : Bytes → Except Bytes Json} {serdes : Bytes → AvroResult → Prop}
  {entries : Nat → List LogEntry}
  {api : Machine.Config (Thread ι κ) (ProcessOp κ) ProcessAns Exn Point (ApiProcess ι κ)}
  {cache : Machine.Config Unit (RunOp RedisOp) (RunAns RedisAns) Bytes Node (World RedisNet)}
  {index : Machine.Config Unit (RunOp HttpOp) (RunAns HttpAns) Bytes Node (World Documents)}
  {id : Bytes}

theorem Rested.mirrors (libs : Libraries E)
    (h : Rested E enc topic esUrl parse serdes entries api cache index)
    (hid : isUuid id = true) : Mirrored enc (api.shared.table id)
      (cache.shared.ledger.sink.redis.get (RedisUpdater.redisKey id))
      (index.shared.ledger.sink (EsIndexer.docUrl esUrl id)) := by
  obtain ⟨p, home⟩ := local_exists h.wellFormed id
  obtain ⟨_, now, hcache⟩ := h.cached
  obtain ⟨_, hindex⟩ := h.indexed
  have hempty : ∀ id, redisShows ⟨Redis.empty now, []⟩ id none := RedisCache.shows_empty now
  have hnone : ∀ id, esShows esUrl Documents.empty id none := fun _ => rfl
  have hredis := shows_last h.wellFormed (redis_advances h.wellFormed) hempty hcache h.cacheDone hid
    home
  have hes := shows_last h.wellFormed (es_advances h.wellFormed) hnone hindex h.indexDone hid home
  have htable : api.shared.table id = last (fun row : OrderRow => some row.id) id
      (OrderStore.writes OrderStore.empty ((effects api.shared.history).map Prod.fst)) := by
    rw [← (holds libs h.served).1.linear.state, replay_empty]
  have hlast := last_captured h.captured home
  rw [← htable] at hlast
  cases hx : last LogEntry.order id (entries p) with
  | none =>
    rw [hx, Option.map_none] at hlast
    rw [redisShows, hx] at hredis
    rw [esShows, hx] at hes
    rw [Option.map_eq_none_iff.mp hlast.symm]
    exact ⟨hredis.2, hes⟩
  | some x =>
    rw [hx, Option.map_some] at hlast
    obtain ⟨row, hrow, himage⟩ := Option.map_eq_some_iff.mp hlast.symm
    obtain ⟨text, hdump, htext⟩ := text_image himage.symm
    rw [redisShows, hx] at hredis
    rw [esShows, hx] at hes
    rw [hrow]
    exact ⟨text, hdump, hredis.2.2.trans htext, hes.trans htext⟩

omit [DecidableEq κ] in
/-- Orders are only ever inserted under generated ids. -/
theorem inserted_uuid {h : List (OrderMark ι)} {table : Table}
    (hlin : Linearized OrderStore.step (rules E.lib E.cols) OrderStore.empty h table)
    (hrow : (table id).isSome = true) : isUuid id = true := by
  rw [← hlin.state] at hrow
  have kept : ∀ id, (replay OrderStore.step OrderStore.empty (effects h) id).isSome = true →
      isUuid id = true := by
    refine replay_keeps (P := fun t : Table => ∀ id, (t id).isSome = true → isUuid id = true) ?_
      fun _ h => by cases h
    intro x hx t ht id hid
    rcases OrderStore.step_found_from x.1 hid with hid | ⟨row, ho, rfl⟩
    · exact ht id hid
    · obtain ⟨o, r⟩ := x
      obtain rfl : o = .insert row := ho
      obtain ⟨u, hu⟩ := effect_of hx
      obtain ⟨y, -, hm⟩ := (hlin.lives u).effect hu
      obtain ⟨body, _, _, _, draws, _, -, hgenerated, -⟩ := means_insert hm
      rw [hgenerated]
      exact uuid_isUuid draws
  exact kept id hrow

theorem Rested.shows (libs : Libraries E)
    (h : Rested E enc topic esUrl parse serdes entries api cache index) {row : OrderRow}
    (hrow : api.shared.table id = some row) : ∃ text, (row.image enc).dump = .ok text ∧
      cache.shared.ledger.sink.redis.get (RedisUpdater.redisKey id) = some text ∧
      index.shared.ledger.sink (EsIndexer.docUrl esUrl id) = some text := by
  have hid : isUuid id = true :=
    inserted_uuid (holds libs h.served).1.linear (by rw [hrow]; rfl)
  have hmirrors := h.mirrors libs hid
  rwa [hrow] at hmirrors

/-- From the API to the stores: once the consumers have caught up, Redis and Elasticsearch have
every order of the table, as it is there, and no other. -/
theorem pipeline_converges (libs : Libraries E)
    (h : Rested E enc topic esUrl parse serdes entries api cache index) :
    (∀ id row, api.shared.table id = some row → ∃ text, (row.image enc).dump = .ok text ∧
      cache.shared.ledger.sink.redis.get (RedisUpdater.redisKey id) = some text ∧
      index.shared.ledger.sink (EsIndexer.docUrl esUrl id) = some text) ∧
    ∀ id, isUuid id = true → api.shared.table id = none →
      cache.shared.ledger.sink.redis.get (RedisUpdater.redisKey id) = none ∧
      index.shared.ledger.sink (EsIndexer.docUrl esUrl id) = none := by
  refine ⟨fun id row hrow => h.shows libs hrow, fun id hid hrow => ?_⟩
  have hmirrors := h.mirrors libs hid
  rwa [hrow] at hmirrors

/-- An order whose 201 has come reaches both stores, as it was asked for. -/
theorem created_reaches_stores (libs : Libraries E)
    (h : Rested E enc topic esUrl parse serdes entries api cache index) {t : ι × Nat}
    {x : Incoming} {body : Bytes} {a : Response} (called : .called t x ∈ api.shared.history)
    (route : x.request.route = some (.createOrder body))
    (answered : .answered t a ∈ api.shared.history) (created : a.status = 201) :
    ∃ row status text, Asked E.lib E.cols body row ∧ (createdDoc row.id).dump = .ok a.body ∧
      (({ row with status := status } : OrderRow).image enc).dump = .ok text ∧
      cache.shared.ledger.sink.redis.get (RedisUpdater.redisKey row.id) = some text ∧
      index.shared.ledger.sink (EsIndexer.docUrl esUrl row.id) = some text := by
  have hlin := (holds libs h.served).1.linear
  obtain ⟨row, hasked, hbody, heff⟩ := created_inserted hlin called route answered created
  have hthere : Holds row api.shared.table := by
    rw [← hlin.state, ← List.append_nil (effects api.shared.history)]
    exact holds_from hlin.legal (mem_effects heff)
  obtain ⟨status, hrow⟩ := hthere
  obtain ⟨text, hdump, hcached, hindexed⟩ := h.shows libs hrow
  exact ⟨row, status, text, hasked, hbody, hdump, hcached, hindexed⟩

/-- What both stores show is no older than an acknowledged status: the update it is from had not
been answered when the acknowledged request came in. -/
theorem status_reaches_stores (libs : Libraries E)
    (h : Rested E enc topic esUrl parse serdes entries api cache index)
    {before during : List (OrderMark ι)} (split : api.shared.history = before ++ during)
    {t : ι × Nat} {x : Incoming} {orderId body : Bytes} (called : .called t x ∈ during)
    (route : x.request.route = some (.updateStatus orderId body))
    (read : E.cols.uuid (cString orderId) = .ok id)
    (answered : .answered t statusUpdated ∈ during) :
    ∃ (row : OrderRow) (text : Bytes) (r : StoreAns) (u : ι × Nat) (y : Incoming),
      (row.image enc).dump = .ok text ∧
      cache.shared.ledger.sink.redis.get (RedisUpdater.redisKey id) = some text ∧
      index.shared.ledger.sink (EsIndexer.docUrl esUrl id) = some text ∧
      .called u y ∈ api.shared.history ∧ means E.lib E.cols y (.setStatus id row.status) r ∧
      ∀ b, .answered u b ∉ before := by
  have hlin := (holds libs h.served).1.linear
  have hsetBy : SetBy id (effects during) api.shared.table := by
    rw [← hlin.state]
    rw [split] at hlin ⊢
    obtain ⟨status, heff⟩ := updated_set hlin (List.mem_append_right _ called) route read
      (List.mem_append_right _ answered)
    have hset := (hlin.lives t).effect_after called heff
    have hlegal := hlin.legal
    rw [effects_append] at hlegal ⊢
    rw [replay_append]
    exact setBy_from ((legal_append _ _ _).mp hlegal).2 (mem_effects hset)
  obtain ⟨row, r, hrow, hby⟩ := hsetBy
  obtain ⟨u, hu⟩ := effect_of hby
  rw [split] at hlin
  obtain ⟨y, hy, hm⟩ := (hlin.lives u).effect (List.mem_append_right _ hu)
  obtain ⟨text, hdump, hcached, hindexed⟩ := h.shows libs hrow
  exact ⟨row, text, r, u, y, hdump, hcached, hindexed, split ▸ hy, hm,
    (hlin.lives u).unanswered hu⟩

end Rest

section Sample

/-- Numerics and times as strings. -/
def sampleEncoding : ColumnEncoding := ⟨.str, fun t => t.elim .null .str⟩

def sampleImage (status : Bytes) : Json := (CalmServer.sampleRow status).image sampleEncoding

theorem sampleImage_row {status : Bytes} (h : Utf8.valid status = true) :
    Row CalmServer.sampleId (sampleImage status) := by
  have hid : Utf8.valid CalmServer.sampleId = true := uuid_utf8 ApiPrograms.sampleDraws
  refine ⟨rfl, rfl, ?_⟩
  simp only [sampleImage, OrderRow.image, CalmServer.sampleRow, sampleEncoding, Json.utf8,
    Json.utf8Members, hid, h]
  decide

/-- The event of the row with this status. -/
def sampleChange (op status : Bytes) (h : Utf8.valid status = true) (lsn : Nat)
    (bound : lsn < 2 ^ 53) : Event where
  record := .obj [(bytes "after", sampleImage status), (bytes "op", .str op),
    (bytes "source", sampleSource lsn)]
  id := CalmServer.sampleId
  lsn := lsn
  image := some (sampleImage status)
  uuid := uuid_isUuid ApiPrograms.sampleDraws
  bound := bound
  source := ⟨sampleSource lsn, .int lsn, rfl, rfl, rfl, .number⟩
  shape := .upsert (sampleImage_row h) .plain rfl

theorem created_utf8 : Utf8.valid (bytes "CREATED") = true := by decide

theorem shipped_utf8 : Utf8.valid (bytes "SHIPPED") = true := by decide

def sampleCreated : Event := sampleChange (bytes "c") (bytes "CREATED") created_utf8 1 one_bound

def sampleShipped : Event := sampleChange (bytes "u") (bytes "SHIPPED") shipped_utf8 2 two_bound

def sampleLog : List LogEntry := [change sampleCreated, change sampleShipped]

theorem sample_captured : Captured sampleEncoding (alone sampleLog)
    [CalmServer.sampleRow (bytes "CREATED"), CalmServer.sampleRow (bytes "SHIPPED")] where
  images := by
    intro p id home
    by_cases hp : p = 0
    · subst hp
      by_cases hid : CalmServer.sampleId = id
      · subst hid
        rfl
      · simp [alone, change, sampleLog, LogEntry.order, sampleCreated, sampleShipped, sampleChange,
          CalmServer.sampleRow, hid]
    · have hid : CalmServer.sampleId ≠ id := by
        rintro rfl
        exact home 0 (Ne.symm hp) _ List.mem_cons_self rfl
      simp [alone, hp, CalmServer.sampleRow, hid]

theorem sample_wellFormed : WellFormed (alone sampleLog) BrokerRuns.parse BrokerRuns.plain := by
  refine alone_wellFormed ?_ (by decide)
  intro x hx
  simp only [sampleLog, List.mem_cons, List.not_mem_nil, or_false] at hx
  rcases hx with rfl | rfl
  · exact .inr ⟨_, by decide, rfl⟩
  · exact .inr ⟨_, by decide, rfl⟩

/-- The pipeline of the sample, at rest in these states. -/
abbrev SampleRested
    (api : Machine.Config (Thread Unit Unit) (ProcessOp Unit) ProcessAns Exn Point
      (ApiProcess Unit Unit))
    (cache : Machine.Config Unit (RunOp RedisOp) (RunAns RedisAns) Bytes Node (World RedisNet))
    (index : Machine.Config Unit (RunOp HttpOp) (RunAns HttpAns) Bytes Node (World Documents)) :
    Prop :=
  Rested CalmServer.sampleSetting sampleEncoding (bytes "orders") (bytes "http://es")
    BrokerRuns.parse BrokerRuns.plain (alone sampleLog) api cache index

/-- One order is posted and shipped, which both consumers have been told. -/
theorem sample_rested : ∃ order status created n₁ m₁ n₂ m₂ api cache index,
    SampleRested api cache index ∧
    api.shared.history = [
      .called ((), n₁) ⟨m₁, CalmServer.samplePost order⟩,
      .effect ((), n₁) (.insert (CalmServer.sampleRow (bytes "CREATED"))) (.inserted true),
      .answered ((), n₁) ⟨201, created⟩] ++ [
      .called ((), n₂) ⟨m₂, CalmServer.samplePatch status⟩,
      .effect ((), n₂) (.setStatus CalmServer.sampleId (bytes "SHIPPED")) (.updated true),
      .answered ((), n₂) statusUpdated] ∧
    api.shared.table CalmServer.sampleId = some (CalmServer.sampleRow (bytes "SHIPPED")) := by
  obtain ⟨order, status, created, n₁, m₁, n₂, m₂, table, api, hthere, hapi⟩ :=
    CalmServer.sample_shipped
  obtain ⟨cache, hcache, hcached⟩ := reach_cached (l := sampleLog) (by decide +kernel)
  obtain ⟨index, hindex, hindexed⟩ := reach_indexed (l := sampleLog) (by decide +kernel)
  refine ⟨order, status, created, n₁, m₁, n₂, m₂, api, cache, index, ?_, hapi.history,
    hapi.table ▸ hthere⟩
  have hwrites : OrderStore.writes OrderStore.empty
      ((effects api.shared.history).map Prod.fst) =
      [CalmServer.sampleRow (bytes "CREATED"), CalmServer.sampleRow (bytes "SHIPPED")] := by
    rw [hapi.history]
    rfl
  exact {
    served := hapi.reach
    captured := hwrites ▸ sample_captured
    wellFormed := sample_wellFormed
    cached := ⟨true, 0, hcache⟩
    indexed := ⟨true, hindex⟩
    cacheDone := hcached
    indexDone := hindexed }

theorem pipeline_converges_sample : ∃ api cache index text, SampleRested api cache index ∧
    (sampleImage (bytes "SHIPPED")).dump = .ok text ∧
    cache.shared.ledger.sink.redis.get (RedisUpdater.redisKey CalmServer.sampleId) = some text ∧
    index.shared.ledger.sink (EsIndexer.docUrl (bytes "http://es") CalmServer.sampleId) =
      some text ∧
    ∀ id, isUuid id = true → api.shared.table id = none →
      cache.shared.ledger.sink.redis.get (RedisUpdater.redisKey id) = none ∧
      index.shared.ledger.sink (EsIndexer.docUrl (bytes "http://es") id) = none := by
  obtain ⟨_, _, _, _, _, _, _, api, cache, index, h, -, hrow⟩ := sample_rested
  obtain ⟨hthere, hother⟩ := pipeline_converges CalmServer.sample_libraries h
  obtain ⟨text, hdump, hcached, hindexed⟩ := hthere _ _ hrow
  exact ⟨api, cache, index, text, h, hdump, hcached, hindexed, hother⟩

theorem created_reaches_stores_sample : ∃ api cache index body created row status text,
    SampleRested api cache index ∧
    Asked CalmServer.sampleSetting.lib CalmServer.sampleSetting.cols body row ∧
    (createdDoc row.id).dump = .ok created ∧
    (({ row with status := status } : OrderRow).image sampleEncoding).dump = .ok text ∧
    cache.shared.ledger.sink.redis.get (RedisUpdater.redisKey row.id) = some text ∧
    index.shared.ledger.sink (EsIndexer.docUrl (bytes "http://es") row.id) = some text := by
  obtain ⟨order, _, created, n₁, m₁, _, _, api, cache, index, h, hhistory, -⟩ := sample_rested
  obtain ⟨row, status, text, hasked, hbody, hdump, hcached, hindexed⟩ := created_reaches_stores
    (t := ((), n₁)) (x := ⟨m₁, CalmServer.samplePost order⟩) (a := ⟨201, created⟩)
    CalmServer.sample_libraries h (by rw [hhistory]; exact List.mem_cons_self)
    (CalmServer.sample_post_route order) (by rw [hhistory]; simp) rfl
  exact ⟨api, cache, index, order, created, row, status, text, h, hasked, hbody, hdump, hcached,
    hindexed⟩

theorem status_reaches_stores_sample : ∃ api cache index before during row text r u y,
    SampleRested api cache index ∧ api.shared.history = before ++ during ∧
    before.length = 3 ∧ during.length = 3 ∧
    (OrderRow.image sampleEncoding row).dump = .ok text ∧
    cache.shared.ledger.sink.redis.get (RedisUpdater.redisKey CalmServer.sampleId) = some text ∧
    index.shared.ledger.sink (EsIndexer.docUrl (bytes "http://es") CalmServer.sampleId) =
      some text ∧
    .called u y ∈ api.shared.history ∧
    means CalmServer.sampleSetting.lib CalmServer.sampleSetting.cols y
      (.setStatus CalmServer.sampleId row.status) r ∧
    ∀ b, .answered u b ∉ before := by
  obtain ⟨_, status, _, _, _, n₂, m₂, api, cache, index, h, hhistory, -⟩ := sample_rested
  obtain ⟨row, text, r, u, y, hdump, hcached, hindexed, hy, hm, hnew⟩ := status_reaches_stores
    CalmServer.sample_libraries h hhistory (t := ((), n₂))
    (x := ⟨m₂, CalmServer.samplePatch status⟩) List.mem_cons_self
    (CalmServer.sample_patch_route status) CalmServer.sample_cut (by simp)
  exact ⟨api, cache, index, _, _, row, text, r, u, y, h, hhistory, rfl, rfl, hdump, hcached,
    hindexed, hy, hm, hnew⟩

end Sample

end CdcPipeline.Proofs.PipelineConverges
