import CdcPipeline.Proofs.ApiPrograms
import CdcPipeline.Proofs.RecordEffect

namespace CdcPipeline.Proofs.CacheInvisible

open Library Text Model RedisUpdater ValueGuard RecordEffect ApiServer ApiPrograms

/-- What the JSON library says of its values: `parse` reads back what `dump` wrote, a
member of a value is a value, and so is an `int64_t`. -/
structure JsonLibrary (parse : Bytes → Except Bytes Json) (value : Json → Prop) : Prop where
  reads : ∀ j t, value j → j.dump = .ok t → parse t = .ok j
  member : ∀ j k v, value j → j.member k = some v → value v
  number : ∀ n, Record.inInt64 n = true → value (.int n)

section Stored

variable {parse : Bytes → Except Bytes Json} {value : Json → Prop}

/-- The text of some value that is not null. -/
def Stored (value : Json → Prop) (t : Bytes) : Prop :=
  ∃ j, value j ∧ j.isNull = false ∧ j.dump = .ok t

/-- All that is stored, orders and versions alike. -/
def Holds (value : Json → Prop) (r : Redis) : Prop :=
  ∀ k e, r.store k = some e → Stored value e.value

/-- Unwrapping leaves a document as it is, or gives a member of it that is an object. -/
theorem unwrap_cases (j : Json) : Record.unwrapUnion j = j ∨
    ∃ k, j.member k = some (Record.unwrapUnion j) ∧ (Record.unwrapUnion j).isObject = true := by
  cases j with
  | obj ms =>
    unfold Record.unwrapUnion
    simp only
    cases hl : (ms.lookup (bytes "Value")).filter Json.isObject with
    | some row =>
      obtain ⟨hm, hobj⟩ := Option.filter_eq_some_iff.mp hl
      exact Or.inr ⟨bytes "Value", hm, hobj⟩
    | none =>
      rcases ms with _ | ⟨⟨k, v⟩, _ | ⟨m, ms⟩⟩
      · exact Or.inl rfl
      · simp only
        by_cases hv : (v.isObject && k != bytes "id") = true
        · rw [if_pos hv]
          rw [Bool.and_eq_true] at hv
          exact Or.inr ⟨k, by simp [Json.member], hv.1⟩
        · rw [if_neg hv]
          exact Or.inl rfl
      · exact Or.inl rfl
  | _ => exact Or.inl rfl

theorem unwrap_value (hj : JsonLibrary parse value) {j : Json} (h : value j)
    (hn : j.isNull = false) :
    value (Record.unwrapUnion j) ∧ (Record.unwrapUnion j).isNull = false := by
  rcases unwrap_cases j with he | ⟨k, hm, hobj⟩
  · rw [he]
    exact ⟨h, hn⟩
  · refine ⟨hj.member j k _ h hm, ?_⟩
    obtain ⟨ms, hms⟩ := Debezium.isObject_obj hobj
    rw [hms]
    rfl

theorem row_value (hj : JsonLibrary parse value) {record row : Json} (h : value record)
    (hrow : Record.orderData record = some row) : value row ∧ row.isNull = false := by
  obtain ⟨image, hs, rfl⟩ := Option.map_eq_some_iff.mp hrow
  unfold Record.selectRow at hs
  cases ha : record.nonNull (bytes "after") with
  | some after =>
    obtain ⟨hm, hn⟩ := Json.nonNull_some ha
    obtain rfl : after = image := by simpa [ha] using hs
    exact unwrap_value hj (hj.member record _ after h hm) hn
  | none =>
    simp only [ha] at hs
    split at hs
    · rename_i hid
      obtain rfl := Option.some.inj hs
      refine unwrap_value hj h ?_
      -- a null contains nothing
      cases record with
      | null => contradiction
      | _ => rfl
    · contradiction

/-- What an execution asks to be stored is the text of a row, if anything. -/
theorem effect_stored (hj : JsonLibrary parse value) {record : Json} (h : value record)
    {key : Bytes} {x : Execution} (he : effect record key = .ok (some x)) :
    (∀ t, x.value = some t → Stored value t) ∧ Stored value (intText x.lsn) := by
  have forOrder_some : ∀ {id text lsn}, forOrder id text lsn = .ok (some x) →
      .ok x.value = text ∧ x.lsn = lsn := by
    intro id text lsn hx
    unfold forOrder at hx
    split at hx
    · contradiction
    · split at hx
      · cases hx
      · split at hx
        · contradiction
        · obtain rfl := Option.some.inj (Except.ok.inj hx)
          exact ⟨rfl, rfl⟩
  have number : Stored value (intText (Record.extractLsn record)) :=
    ⟨.int _, hj.number _ (Record.inInt64_extractLsn record), rfl, rfl⟩
  unfold effect at he
  cases hrow : Record.orderData record with
  | some row =>
    simp only [hrow] at he
    obtain ⟨htext, hlsn⟩ := forOrder_some he
    refine ⟨fun t ht => ?_, hlsn ▸ number⟩
    obtain ⟨hv, hn⟩ := row_value hj h hrow
    cases hd : row.dump with
    | error what => simp [hd, Except.map] at htext
    | ok text =>
      rw [ht, hd] at htext
      obtain rfl := Option.some.inj (Except.ok.inj htext)
      exact ⟨row, hv, hn, hd⟩
  | none =>
    simp only [hrow] at he
    split at he
    · obtain ⟨htext, hlsn⟩ := forOrder_some he
      refine ⟨fun t ht => ?_, hlsn ▸ number⟩
      rw [ht] at htext
      cases htext
    · cases he

theorem setEx_holds {r : Redis} (h : Holds value r) {k v : Bytes} (hv : Stored value v)
    (ttl : Nat) : Holds value (r.setEx k v ttl) := by
  intro k' e he
  by_cases hk : k' = k
  · subst hk
    simp only [Redis.setEx, Function.update_self, Option.some.injEq] at he
    exact he ▸ hv
  · rw [Redis.store_setEx_ne r v ttl hk] at he
    exact h k' e he

theorem del_holds {r : Redis} (h : Holds value r) (k : Bytes) : Holds value (r.del k) := by
  intro k' e he
  by_cases hk : k' = k
  · subst hk
    simp [Redis.del] at he
  · rw [Redis.store_del_ne r hk] at he
    exact h k' e he

/-- One call of `ProcessRecord`. -/
theorem process_holds (hj : JsonLibrary parse value) {record : Json} (hr : value record)
    (key : Bytes) (offset : Nat) {r : Redis} (h : Holds value r) :
    Holds value (Exchange.process record key offset r).2.redis := by
  rw [process_redis]
  split
  · rename_i x he
    obtain ⟨hval, hlsn⟩ := effect_stored hj hr he
    rw [exec_command]
    split
    · exact h
    · unfold written
      refine setEx_holds ?_ hlsn 86400
      cases hx : x.value with
      | some v => exact setEx_holds h (hval v hx) 86400
      | none => exact del_holds h (redisKey x.id)
  · exact h

theorem reach_holds (hj : JsonLibrary parse value) {r : Redis} (h : Exchange.Reach value r) :
    Holds value r := by
  induction h with
  | empty now =>
    intro k e he
    contradiction
  | process _ isValue key offset ih => exact process_holds hj isValue key offset ih
  | tick _ elapsed ih => exact ih
  | expire _ gone ih => exact del_holds ih _

theorem get_stored {r : Redis} (h : Holds value r) {k t : Bytes} (ht : r.get k = some t) :
    Stored value t := by
  obtain ⟨e, he, rfl⟩ := Option.map_eq_some_iff.mp ht
  exact h k e (Option.filter_eq_some_iff.mp he).1

end Stored

/-- A string that Redis answers with is what it holds; any other outcome may come too. -/
def Answers (r : Redis) (E : Backends) : Prop :=
  ∀ key str, E.reply key = some (.string str) → r.get key = some str

/-- A request whose key has no NUL is answered with the stored object, marked as from Redis,
or as Postgres alone would have it answered. -/
theorem cache_invisible {lib : Conversions} {value : Json → Prop}
    (library : JsonLibrary lib.parse value) {r : Redis} (h : Exchange.Reach value r)
    {orderId : Bytes} (noNul : 0 ∉ orderId) {E : Backends} (answers : Answers r E) (s : Served) :
    respond (getOrder lib orderId) E s = respond (postgresAlone lib orderId) E s ∨
    ∃ ms text body, r.get (bytes "order:" ++ orderId) = some text ∧
      (Json.obj ms).dump = .ok text ∧
      (Json.obj (Json.insertMember (bytes "source") (.str (bytes "redis")) ms)).dump = .ok body ∧
      respond (getOrder lib orderId) E s = .ok ⟨200, body⟩ := by
  by_cases hc : ∃ response, ((fromCache lib orderId).run E.answer s).1 = .ok (some response)
  · right
    obtain ⟨response, hc⟩ := hc
    obtain ⟨text, order, doc, body, hreply, hparse, hassign, hdump, rfl⟩ := cached_response hc
    have hkey : (0 : UInt8) ∉ bytes "order:" ++ orderId := by
      rw [List.mem_append, not_or]
      exact ⟨by decide, noNul⟩
    rw [cString_eq hkey] at hreply
    have hget := answers _ _ hreply
    -- what is stored was dumped, and reads back as what it was dumped from
    obtain ⟨j, hv, hn, hj⟩ := get_stored (reach_holds library h) hget
    rw [cString_eq (Json.noNul_dump j hj), library.reads j text hv hj] at hparse
    obtain rfl := Except.ok.inj hparse
    cases j with
    | obj ms =>
      obtain rfl := Except.ok.inj hassign
      exact ⟨ms, text, body, hget, hj, hdump, getOrder_cached hc⟩
    | null => contradiction
    | _ => contradiction
  · left
    exact getOrder_fallback fun response he => hc ⟨response, he⟩

theorem sample_library : JsonLibrary sampleConversions.parse (fun _ => True) where
  reads j t _ h := by simp only [sampleConversions, Json.read_dump h]
  member _ _ _ _ _ := trivial
  number _ _ := trivial

/-- Redis after one order was stored. -/
def sampleRedis : Redis :=
  (Exchange.process (Debezium.sampleUpsert 1 Debezium.one_bound).record [] 0
    (Redis.empty 0)).2.redis

/-- It answers as it should, and Postgres knows nothing. -/
def sampleBackends : Backends where
  reply key := some ((sampleRedis.get key).elim .nil .string)
  rows _ := .ok []
  draws := sampleDraws
  committed := .ok ()

theorem sample_answers : Answers sampleRedis sampleBackends := by
  intro key str h
  simp only [sampleBackends] at h
  cases hg : sampleRedis.get key with
  | none => simp [hg] at h
  | some text =>
    simp only [hg, Option.elim_some, Option.some.injEq, Reply.string.injEq] at h
    rw [h]

theorem cache_invisible_once :
    respond (getOrder sampleConversions Debezium.sampleId) sampleBackends ⟨true, []⟩ =
        respond (postgresAlone sampleConversions Debezium.sampleId) sampleBackends ⟨true, []⟩ ∨
    ∃ ms text body, sampleRedis.get (bytes "order:" ++ Debezium.sampleId) = some text ∧
      (Json.obj ms).dump = .ok text ∧
      (Json.obj (Json.insertMember (bytes "source") (.str (bytes "redis")) ms)).dump = .ok body ∧
      respond (getOrder sampleConversions Debezium.sampleId) sampleBackends ⟨true, []⟩ =
        .ok ⟨200, body⟩ :=
  cache_invisible sample_library (.process (.empty 0) trivial [] 0) (by decide) sample_answers _

end CdcPipeline.Proofs.CacheInvisible
