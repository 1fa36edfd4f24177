import CdcPipeline.Model.ApiProcess
import CdcPipeline.Proofs.SqlText

namespace CdcPipeline.Proofs.ServedOrders

open Library Text Sql Model Postgres ApiServer DatabaseClient

section Texts

theorem insertWords_head : Statement.insertHead = SqlText.insertWords := rfl

theorem selectWords_head : Statement.selectHead = SqlText.selectWords := rfl

theorem readAmount_decimal (d : Decimal) (rest : List Token) :
    Statement.readAmount (decimalTokens d ++ rest) = some (⟨d.negative, d.unsigned⟩, rest) := by
  unfold decimalTokens
  cases d.negative <;> rfl

theorem ofTokens_insert (id userId : Bytes) (d : Decimal) (items : Bytes) :
    Statement.ofTokens (SqlText.insertTokens id userId d items) =
      some (.insert ⟨id, userId, ⟨d.negative, d.unsigned⟩, bytes "CREATED", items⟩) := by
  have hsplit : SqlText.insertTokens id userId d items = Statement.insertHead ++
      (.string id :: .punctuation 44 :: .string userId :: .punctuation 44 ::
        (decimalTokens d ++ [.punctuation 44, .string (bytes "CREATED"), .punctuation 44,
          .string items, .punctuation 41])) := by
    rw [insertWords_head, SqlText.insertTokens]
    simp
  rw [hsplit, Statement.ofTokens, List.take_left, if_pos rfl, List.drop_left]
  simp only [Statement.readValues, readAmount_decimal, Option.map_some]

theorem ofTokens_select (id : Bytes) :
    Statement.ofTokens (SqlText.selectTokens id) = some (.select id) := by
  have hne : ¬ (SqlText.selectTokens id).take Statement.insertHead.length =
      Statement.insertHead := by
    intro h
    have hhead := congrArg List.head? h
    simp [SqlText.selectTokens, SqlText.selectWords, insertWords_head, SqlText.insertWords] at hhead
    exact absurd hhead (by decide)
  rw [Statement.ofTokens, if_neg hne, SqlText.selectTokens, ← selectWords_head, List.take_left,
    if_pos rfl, List.drop_left]

/-- An order without an apostrophe is inserted as it is. -/
theorem ofText_insert (draws : Draws) {userId : Bytes} (d : Decimal) {items : Bytes}
    (hitems : ∀ c ∈ items, 32 ≤ c) (hq : 39 ∉ userId) (h0 : 0 ∉ userId) (hi : 39 ∉ items) :
    Statement.ofText (cString (insertOrder (generateUuid draws) userId d.text items)) =
      some (.insert ⟨generateUuid draws, userId, ⟨d.negative, d.unsigned⟩, bytes "CREATED",
        items⟩) := by
  rw [Statement.ofText, (SqlText.insert_iff draws userId d hitems).mpr ⟨hq, h0, hi⟩,
    Option.bind_some, ofTokens_insert]

theorem ofText_select {orderId : Bytes} (hq : 39 ∉ orderId) (h0 : 0 ∉ orderId) :
    Statement.ofText (cString (selectOrder orderId)) = some (.select orderId) := by
  rw [Statement.ofText, (SqlText.select_iff orderId).mpr ⟨hq, h0⟩, Option.bind_some,
    ofTokens_select]

end Texts

section Requests

variable (lib : Conversions) (cols : ColumnTypes)

/-- The texts that a body of `POST` puts into the statement. -/
def orderText (body : Bytes) : Except Bytes (Bytes × Decimal × Bytes) := do
  let j ← lib.parse body
  let userId ← j.at_ (bytes "user_id") >>= getString
  let totalAmount ← j.at_ (bytes "total_amount") >>= getNumber
  let items ← j.at_ (bytes "items")
  let text ← items.dump
  return (userId, lib.formatDouble totalAmount, text)

/-- The status that a body of `PATCH` asks for. -/
def statusText (body : Bytes) : Except Bytes Bytes := do
  let j ← lib.parse body
  j.at_ (bytes "status") >>= getString

/-- A request that stays within the literals of its statement. -/
def Clean (r : Request) : Prop :=
  match r.route with
  | some (.createOrder body) => ∀ u d t, orderText lib body = .ok (u, d, t) →
      39 ∉ u ∧ 0 ∉ u ∧ 39 ∉ t
  | some (.getOrder orderId) => 39 ∉ orderId ∧ 0 ∉ orderId
  | _ => True

/-- The document that a row is answered with. -/
def rowDoc (row : OrderRow) : Except Exn Json := do
  let totalAmount ← (lib.asDouble row.totalAmount).mapError .other
  let items ← (lib.parse row.items).mapError .json
  return .obj [(bytes "id", .str row.id),
    (bytes "items_jsonb", items),
    (bytes "source", .str (bytes "postgres")),
    (bytes "status", .str row.status),
    (bytes "total_amount", .float totalAmount),
    (bytes "user_id", .str row.userId)]

def rowBody (row : OrderRow) : Except Exn Bytes := do
  let doc ← rowDoc lib row
  doc.dump.mapError .json

/-- The body of a 201. -/
def createdDoc (orderId : Bytes) : Json :=
  .obj [(bytes "id", .str orderId), (bytes "status", .str (bytes "CREATED"))]

/-- A response made of what Redis had. -/
def FromRedis (a : Response) : Prop :=
  a.status = 200 ∧ ∃ ms, (Json.obj ms).dump = .ok a.body ∧
    ms.lookup (bytes "source") = some (.str (bytes "redis"))

/-- The row that a body of `POST` asks for, under an id of its own. -/
def Asked (body : Bytes) (row : OrderRow) : Prop :=
  ∃ u d t draws now, orderText lib body = .ok (u, d, t) ∧ row.id = generateUuid draws ∧
    cols.row ⟨generateUuid draws, u, ⟨d.negative, d.unsigned⟩, bytes "CREATED", t⟩ now = .ok row

/-- What each operation of the store has to do with the request it is done for. -/
def means (x : Incoming) (o : StoreOp) (r : StoreAns) : Prop :=
  match x.request.route, o with
  | some (.createOrder body), .insert row => Asked lib cols body row ∧ r = .inserted true
  | some (.updateStatus orderId body), .setStatus id status =>
    (∃ text, statusText lib body = .ok text ∧ cols.varchar (cString text) = .ok status) ∧
      cols.uuid (cString orderId) = .ok id
  | some (.getOrder orderId), .find id => cols.uuid orderId = .ok id
  | _, _ => False

/-- The responses to a request that has not touched the store. -/
def failed (x : Incoming) (a : Response) : Prop :=
  match x.request.route with
  | some (.createOrder body) =>
    (a = invalidPayload ∧ ∃ e, orderText lib body = .error e) ∨
      (a = internalServerError ∧ ∃ v, orderText lib body = .ok v)
  | some (.updateStatus _ body) =>
    (a = invalidPayload ∧ ∃ e, statusText lib body = .error e) ∨
      (a = internalServerError ∧ ∃ v, statusText lib body = .ok v)
  | some (.getOrder _) => FromRedis a ∨ a = internalServerError
  | none => a = notRouted

/-- The responses to a request that has. An error means no more than that. -/
def done (_ : Incoming) (o : StoreOp) (r : StoreAns) (a : Response) : Prop :=
  match o, r with
  | .insert row, .inserted true =>
    (∃ body, (createdDoc row.id).dump = .ok body ∧ a = ⟨201, body⟩) ∨ a = internalServerError
  | .setStatus _ _, .updated found =>
    a = (if found then statusUpdated else orderNotFound) ∨ a = internalServerError
  | .find _, .row none => a = orderNotFound
  | .find _, .row (some row) =>
    (∃ body, rowBody lib row = .ok body ∧ a = ⟨200, body⟩) ∨
      (a = internalServerError ∧ ∃ e, rowBody lib row = .error e)
  | _, _ => False

def rules : History.Rules Incoming StoreOp StoreAns Response :=
  ⟨means lib cols, failed lib, done lib⟩

section Means

variable {lib cols} {x : Incoming} {o : StoreOp} {r : StoreAns} {orderId body : Bytes}

theorem means_create (h : x.request.route = some (.createOrder body)) : means lib cols x o r ↔
    ∃ row, o = .insert row ∧ Asked lib cols body row ∧ r = .inserted true := by
  unfold means
  rw [h]
  cases o <;> simp

theorem means_insert {row : OrderRow} (h : means lib cols x (.insert row) r) :
    ∃ body, Asked lib cols body row := by
  unfold means at h
  split at h
  · rename_i body new _ ho
    obtain rfl := StoreOp.insert.inj ho
    exact ⟨body, h.1⟩
  · cases ‹StoreOp.insert row = _›
  · cases ‹StoreOp.insert row = _›
  · exact False.elim h

theorem means_update (h : x.request.route = some (.updateStatus orderId body)) :
    means lib cols x o r ↔ ∃ id status, o = .setStatus id status ∧
      (∃ text, statusText lib body = .ok text ∧ cols.varchar (cString text) = .ok status) ∧
      cols.uuid (cString orderId) = .ok id := by
  unfold means
  rw [h]
  cases o <;> simp

theorem means_get (h : x.request.route = some (.getOrder orderId)) : means lib cols x o r ↔
    ∃ id, o = .find id ∧ cols.uuid orderId = .ok id := by
  unfold means
  rw [h]
  cases o <;> simp

theorem failed_create (h : x.request.route = some (.createOrder body)) {a : Response} :
    failed lib x a ↔ (a = invalidPayload ∧ ∃ e, orderText lib body = .error e) ∨
      (a = internalServerError ∧ ∃ v, orderText lib body = .ok v) := by
  unfold failed
  rw [h]

theorem failed_update (h : x.request.route = some (.updateStatus orderId body)) {a : Response} :
    failed lib x a ↔ (a = invalidPayload ∧ ∃ e, statusText lib body = .error e) ∨
      (a = internalServerError ∧ ∃ v, statusText lib body = .ok v) := by
  unfold failed
  rw [h]

theorem failed_get (h : x.request.route = some (.getOrder orderId)) {a : Response} :
    failed lib x a ↔ FromRedis a ∨ a = internalServerError := by
  unfold failed
  rw [h]

theorem failed_none (h : x.request.route = none) {a : Response} :
    failed lib x a ↔ a = notRouted := by
  unfold failed
  rw [h]

end Means

end Requests

end CdcPipeline.Proofs.ServedOrders
