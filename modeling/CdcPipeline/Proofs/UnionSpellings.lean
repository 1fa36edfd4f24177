import CdcPipeline.Model.Debezium
import CdcPipeline.Model.EsIndexer
import CdcPipeline.Model.Notifier

namespace CdcPipeline.Proofs.UnionSpellings

open Library Text Model Debezium Record RedisProg

/-- An id as the consumers accept it: a number, or a string that is not empty. -/
def NamesOrder : Json → Prop
  | .int _ | .float _ => True
  | .str s => s ≠ []
  | _ => False

/-- A row image: an object with an id, and no member that looks like a union's branch. -/
structure Image (row : Json) : Prop where
  named : ∃ v, row.member (bytes "id") = some v ∧ NamesOrder v
  plain : (row.member (bytes "Value")).filter Json.isObject = none

/-- A record that is an envelope, not a row itself. -/
structure Envelope (record : Json) : Prop where
  noId : record.contains (bytes "id") = false
  noOrderId : record.contains (bytes "order_id") = false

/-- RedisUpdater stores a row. -/
def storing (id : Bytes) (row : Json) (lsn : Int) (offset : Nat) : RedisProg Unit := do
  RedisUpdater.ensureConnected
  let orderJsonStr ← Prog.ofExcept row.dump
  let reply ← redisCommand (RedisUpdater.upsertCommand id orderJsonStr lsn)
  let reply ← checkReply (bytes "Redis upsert") reply
  if reply = .integer 0 then log (.redisStaleEventIgnored id lsn offset)
  else
    let status ← Prog.ofExcept (stringValue row (bytes "status") (bytes "UNKNOWN"))
    log (.redisUpdated id status lsn offset)

/-- RedisUpdater deletes an order. -/
def dropping (id : Bytes) (lsn : Int) (offset : Nat) : RedisProg Unit := do
  RedisUpdater.ensureConnected
  let reply ← redisCommand (RedisUpdater.delCommand id lsn)
  let _ ← checkReply (bytes "Redis delete") reply
  log (.redisDeleted id lsn offset)

/-- ESIndexer puts a row. -/
def indexing (esUrl id : Bytes) (row : Json) (offset : Nat) : HttpProg Unit := do
  let body ← Prog.ofExcept row.dump
  let r ← EsIndexer.request (.put (EsIndexer.docUrl esUrl id) body)
  if EsIndexer.succeeded r.statusCode then EsIndexer.log (.esIndexed id r.statusCode offset)
  else Prog.raise (bytes "Elasticsearch indexing failed: status " ++ intText r.statusCode ++
    bytes ", error: " ++ r.error ++ bytes ", response: " ++ r.text)

/-- ESIndexer deletes a document. -/
def unindexing (esUrl id : Bytes) : HttpProg Unit := do
  let r ← EsIndexer.request (.delete (EsIndexer.docUrl esUrl id))
  if EsIndexer.succeeded r.statusCode then EsIndexer.log (.esDeleted id r.statusCode)
  else if r.statusCode ≠ 404 then
    Prog.raise (bytes "Elasticsearch delete failed: status " ++ intText r.statusCode ++
      bytes ", error: " ++ r.error)
  else return ()

/-- Notifier decides whether to write to a row's customer. -/
def notifying (id : Bytes) (row : Json) (offset : Nat) : RedisProg Unit := do
  let status ← Prog.ofExcept (stringValue row (bytes "status") [])
  let customer ← Prog.ofExcept (Notifier.customerId row)
  if Notifier.notifies status then Notifier.notify id status customer offset else return ()

section
variable {record row : Json} {id key : Bytes} (hid : orderId row key = .ok id) (hne : id ≠ [])
  (offset : Nat)
include hid hne

theorem processUpsert_known : RedisUpdater.processUpsert record row key offset =
    storing id row (extractLsn record) offset := by
  simp only [RedisUpdater.processUpsert, hid, Prog.ofExcept_ok, Prog.bind_eq, Prog.ret_bind, hne,
    if_false]
  rfl

theorem processIndex_known (esUrl : Bytes) : EsIndexer.processIndex esUrl row key offset =
    indexing esUrl id row offset := by
  simp only [EsIndexer.processIndex, hid, Prog.ofExcept_ok, Prog.bind_eq, Prog.ret_bind, hne,
    if_false]
  rfl

theorem processRow_known : Notifier.processRow row key offset = notifying id row offset := by
  simp only [Notifier.processRow, hid, Prog.ofExcept_ok, Prog.bind_eq, Prog.ret_bind, hne,
    if_false]
  rfl

theorem processDelete_known (hb : beforeData record = some row) :
    RedisUpdater.processDelete record key offset = dropping id (extractLsn record) offset := by
  simp only [RedisUpdater.processDelete, hb, hid, Prog.ofExcept_ok, Prog.bind_eq, Prog.ret_bind,
    hne, if_false]
  rfl

omit offset in
theorem esDelete_known (esUrl : Bytes) (hb : beforeData record = some row) :
    EsIndexer.processDelete esUrl record key = unindexing esUrl id := by
  simp only [EsIndexer.processDelete, hb, hid, Prog.ofExcept_ok, Prog.bind_eq, Prog.ret_bind,
    hne, if_false]
  rfl

end

theorem intText_ne_nil (n : Int) : intText n ≠ [] := by
  cases n with
  | ofNat n => exact natText_ne_nil n
  | negSucc n => exact List.cons_ne_nil _ _

theorem floatText_ne_nil (x : FloatText) : x.text ≠ [] := by
  intro h
  have hf := x.isFloat
  rw [h] at hf
  contradiction

section
variable {row : Json} (image : Image row)
include image

theorem Image.unwrap {w : Json} (spelt : Spells row w) : unwrapUnion w = row := by
  obtain ⟨v, hv, hname⟩ := image.named
  have hscalar : v.isObject = false := by
    cases v with
    | obj ms => exact hname.elim
    | _ => rfl
  exact unwrap_spells (isObject_of_member hv) (unwrap_plain hv hscalar image.plain) spelt

/-- The id is read from the row, whatever the message's key is. -/
theorem Image.order : ∃ id, id ≠ [] ∧ idText row = .ok id ∧ ∀ key, orderId row key = .ok id := by
  obtain ⟨v, hv, hname⟩ := image.named
  have hn : row.nonNull (bytes "id") = some v := by
    rw [Json.nonNull, hv]
    cases v with
    | null => exact hname.elim
    | _ => rfl
  obtain ⟨id, hne, htext⟩ : ∃ id, id ≠ [] ∧ textOf v = .ok id := by
    cases v with
    | str s => exact ⟨s, hname, rfl⟩
    | int n => exact ⟨intText n, intText_ne_nil n, rfl⟩
    | float x => exact ⟨x.text, floatText_ne_nil x, rfl⟩
    | _ => exact hname.elim
  have hid : idText row = .ok id := by simp only [idText, hn, htext]
  refine ⟨id, hne, hid, fun key => ?_⟩
  rw [orderId, hid]
  exact congrArg Except.ok (if_neg hne)

end

theorem orderData_after {record row w : Json} (image : Image row) (spelt : Spells row w)
    (hafter : record.nonNull (bytes "after") = some w) : orderData record = some row := by
  rw [orderData, selectRow, hafter]
  exact congrArg some (image.unwrap spelt)

theorem orderData_envelope {record : Json} (env : Envelope record)
    (hafter : record.nonNull (bytes "after") = none) : orderData record = none := by
  rw [orderData, selectRow, hafter, env.noId, env.noOrderId]
  rfl

theorem beforeData_delete {record row w : Json} (image : Image row) (spelt : Spells row w)
    (hdelete : isDelete record = true) (hbefore : record.nonNull (bytes "before") = some w) :
    beforeData record = some row := by
  rw [beforeData, if_pos hdelete, hbefore]
  exact congrArg some (image.unwrap spelt)

/-- However a row is spelled and whatever the key, one document is stored under one id, one
decision is taken for it, and a delete of it removes that id; only its version and its
offset come from elsewhere. -/
theorem spelling_irrelevant {row : Json} (image : Image row) :
    ∃ id, id ≠ [] ∧ idText row = .ok id ∧
      ∀ (record w : Json) (key : Bytes) (offset : Nat) (esUrl : Bytes),
        Envelope record → Spells row w →
        (record.nonNull (bytes "after") = some w →
          RedisUpdater.processRecord record key offset =
              storing id row (extractLsn record) offset ∧
            EsIndexer.processRecord esUrl record key offset = indexing esUrl id row offset ∧
            Notifier.processRecord record key offset = notifying id row offset) ∧
        (record.nonNull (bytes "after") = none → isDelete record = true →
          record.nonNull (bytes "before") = some w →
          RedisUpdater.processRecord record key offset = dropping id (extractLsn record) offset ∧
            EsIndexer.processRecord esUrl record key offset = unindexing esUrl id) := by
  obtain ⟨id, hne, hid, horder⟩ := image.order
  refine ⟨id, hne, hid, fun record w key offset esUrl env spelt => ⟨fun hafter => ?_, ?_⟩⟩
  · have hdata := orderData_after image spelt hafter
    refine ⟨?_, ?_, ?_⟩
    · rw [RedisUpdater.processRecord, hdata]
      exact processUpsert_known (horder key) hne offset
    · rw [EsIndexer.processRecord, hdata]
      exact processIndex_known (horder key) hne offset esUrl
    · rw [Notifier.processRecord, hdata]
      exact processRow_known (horder key) hne offset
  · intro hafter hdelete hbefore
    have hdata := orderData_envelope env hafter
    have hb := beforeData_delete image spelt hdelete hbefore
    refine ⟨?_, ?_⟩
    · rw [RedisUpdater.processRecord, hdata]
      exact processDelete_known (horder key) hne offset hb
    · rw [EsIndexer.processRecord, hdata]
      exact esDelete_known (horder key) hne esUrl hb

def sampleRow : Json := .obj [(bytes "id", .int 7), (bytes "status", .str (bytes "SHIPPED"))]

theorem sampleRow_image : Image sampleRow := ⟨⟨.int 7, rfl, trivial⟩, rfl⟩

/-- Spelled as the branch of a union, behind some other key. -/
def sampleUpsert : Json := .obj [(bytes "after", .obj [(bytes "orders", sampleRow)])]

theorem spelling_irrelevant_branch : ∃ id, idText sampleRow = .ok id ∧
    RedisUpdater.processRecord sampleUpsert (bytes "k") 3 = storing id sampleRow 0 3 := by
  obtain ⟨id, -, hid, h⟩ := spelling_irrelevant sampleRow_image
  refine ⟨id, hid, ?_⟩
  exact ((h sampleUpsert _ (bytes "k") 3 [] ⟨rfl, rfl⟩ (.branch (bytes "orders") (by decide))).1
    rfl).1

end CdcPipeline.Proofs.UnionSpellings
