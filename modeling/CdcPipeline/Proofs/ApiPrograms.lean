import CdcPipeline.Library.JsonBytes
import CdcPipeline.Model.ApiServer

namespace CdcPipeline.Proofs.ApiPrograms

open Library Text Model ApiServer DatabaseClient

/-- What the handler answers. -/
def respond (p : ApiProg Response) (E : Backends) (s : Served) : Except Exn Response :=
  (p.run E.answer s).1

/-- The answer without Redis: the Postgres lookup under the handler's outer `try`. -/
def postgresAlone (lib : Conversions) (orderId : Bytes) : ApiProg Response :=
  guarded (fromPostgres lib orderId)

variable {lib : Conversions} {E : Backends} {s : Served}

def Silent (_ : ApiOp) : Prop := False

def Lookup : ApiOp → Prop
  | .exec _ | .log _ => True
  | _ => False

theorem asks_ofPqxx {α : Type} (r : Except Bytes α) : (ApiProg.ofPqxx r).Asks Silent :=
  Prog.asks_ofExcept _ _

theorem asks_ofJson {α : Type} (r : Except Bytes α) : (ApiProg.ofJson r).Asks Silent :=
  Prog.asks_ofExcept _ _

/-- Reading a row calls nothing. -/
theorem asks_orderJson (row : SqlRow) : (orderJson lib row).Asks Silent := by
  unfold orderJson
  simp only [Prog.bind_eq, Prog.pure_eq]
  iterate 5 refine (asks_ofPqxx _).bind fun _ => ?_
  exact (asks_ofJson _).bind fun _ => trivial

theorem asks_found (order : Json) (source : Bytes) : (found order source).Asks Silent :=
  (asks_ofJson _).bind fun _ => (asks_ofJson _).bind fun _ => trivial

theorem lookup_of_silent (op : ApiOp) (h : Silent op) : Lookup op := absurd h id

theorem asks_getOrderById (orderId : Bytes) : (getOrderById lib orderId).Asks Lookup := by
  unfold getOrderById ApiProg.logged
  refine (Prog.Asks.attempt ?_).bind fun r => ?_
  · refine Prog.Asks.bind (p := exec _)
      ⟨trivial, fun r => (asks_ofPqxx r).mono lookup_of_silent⟩ fun rows => ?_
    cases rows with
    | nil => trivial
    | cons row rows =>
      exact ((asks_orderJson row).mono lookup_of_silent).bind fun _ => trivial
  · cases r with
    | ok a => trivial
    | error exn => exact ⟨trivial, fun _ => trivial⟩

theorem asks_fromPostgres (orderId : Bytes) : (fromPostgres lib orderId).Asks Lookup := by
  refine (asks_getOrderById orderId).bind fun order => ?_
  cases order with
  | none => trivial
  | some order => exact ⟨trivial, fun _ => (asks_found order _).mono lookup_of_silent⟩

theorem asks_guarded {p : ApiProg Response} (h : p.Asks Lookup) : (guarded p).Asks Lookup := by
  refine h.attempt.bind fun r => ?_
  cases r with
  | ok a => trivial
  | error exn => exact ⟨trivial, fun _ => trivial⟩

/-- Logging an exception on its way leaves no trace. -/
theorem run_logged {α : Type} (p : ApiProg α) (e : Bytes → ApiLog) (s : Served) :
    (p.logged e).run E.answer s = p.run E.answer s := by
  unfold ApiProg.logged
  rw [Prog.bind_eq, Prog.run_bind, Prog.run_attempt]
  obtain ⟨r, t⟩ := p.run E.answer s
  cases r with
  | ok a => rfl
  | error exn => rfl

theorem run_found (order : Json) (source : Bytes) (s : Served) {response : Response}
    (h : ((found order source).run E.answer s).1 = .ok response) :
    ∃ doc body, order.assign (bytes "source") (.str source) = .ok doc ∧ doc.dump = .ok body ∧
      response = ⟨200, body⟩ := by
  unfold found ApiProg.ofJson at h
  cases ha : order.assign (bytes "source") (.str source) with
  | error what => simp [ha, Except.mapError] at h
  | ok doc =>
    cases hd : doc.dump with
    | error what => simp [ha, hd, Except.mapError] at h
    | ok body =>
      simp only [ha, hd, Except.mapError, Prog.ofExcept_ok, Prog.bind_eq, Prog.ret_bind,
        Prog.pure_eq, Prog.run_ret, Except.ok.injEq] at h
      exact ⟨doc, body, rfl, hd, h.symm⟩

theorem orderJson_members {row : SqlRow} {order : Json} (s : Served)
    (h : ((orderJson lib row).run E.answer s).1 = .ok order) :
    ∃ id items status amount userId, order = .obj [(bytes "id", .str id),
      (bytes "items_jsonb", items), (bytes "status", .str status),
      (bytes "total_amount", .float amount), (bytes "user_id", .str userId)] := by
  have step : ∀ {α : Type} {r : Except Exn α} {k : α → ApiProg Json},
      (((Prog.ofExcept r).bind k).run E.answer s).1 = .ok order →
        ∃ a, ((k a).run E.answer s).1 = .ok order := by
    intro α r k hk
    cases r with
    | ok a => exact ⟨a, hk⟩
    | error exn => cases hk
  unfold orderJson at h
  simp only [Prog.bind_eq, Prog.pure_eq, ApiProg.ofPqxx, ApiProg.ofJson] at h
  obtain ⟨id, h⟩ := step h
  obtain ⟨userId, h⟩ := step h
  obtain ⟨amount, h⟩ := step h
  obtain ⟨status, h⟩ := step h
  obtain ⟨text, h⟩ := step h
  obtain ⟨items, h⟩ := step h
  exact ⟨id, items, status, amount, userId, (Except.ok.inj h).symm⟩

theorem getOrderById_members {orderId : Bytes} {order : Json} {s : Served}
    (h : ((getOrderById lib orderId).run E.answer s).1 = .ok (some order)) :
    ∃ id items status amount userId, order = .obj [(bytes "id", .str id),
      (bytes "items_jsonb", items), (bytes "status", .str status),
      (bytes "total_amount", .float amount), (bytes "user_id", .str userId)] := by
  unfold getOrderById exec at h
  simp only [Prog.bind_eq, Prog.pure_eq, ApiProg.call, Prog.call_bind, run_logged, Prog.run_ask,
    Prog.ask_bind, ApiProg.ofPqxx, Backends.answer] at h
  rcases hr : E.rows (cString (selectOrder orderId)) with what | _ | ⟨row, rows⟩
  · simp [hr, Except.mapError] at h
  · simp [hr, Except.mapError] at h
  · simp only [hr, Except.mapError, Prog.ofExcept_ok, Prog.ret_bind, Prog.run_bind] at h
    split at h
    · rename_i order' t ho
      obtain rfl := Option.some.inj (Except.ok.inj h)
      exact orderJson_members _ (congrArg Prod.fst ho)
    · cases h

/-- What Redis did before does not show in the answer of Postgres. -/
theorem postgresAlone_congr (orderId : Bytes) (s s' : Served) :
    respond (postgresAlone lib orderId) E s = respond (postgresAlone lib orderId) E s' := by
  apply Prog.run_congr
  refine (asks_guarded (asks_fromPostgres orderId)).mono ?_
  intro op hop t t'
  cases op with
  | exec sql => rfl
  | log e => rfl
  | _ => exact absurd hop id

/-- The outer `try` turns on what is run inside. -/
theorem guarded_run (p : ApiProg Response) (s : Served) : respond (guarded p) E s =
    match (p.run E.answer s).1 with
    | .ok response => .ok response
    | .error _ => .ok internalServerError := by
  unfold respond guarded
  rw [Prog.bind_eq, Prog.run_bind, Prog.run_attempt]
  simp only
  cases (p.run E.answer s).1 with
  | ok response => rfl
  | error exn => rfl

/-- A cache that gives no response, for whatever reason, leaves it to Postgres. -/
theorem getOrder_fallback {orderId : Bytes}
    (h : ∀ response, ((fromCache lib orderId).run E.answer s).1 ≠ .ok (some response)) :
    respond (getOrder lib orderId) E s = respond (postgresAlone lib orderId) E s := by
  rw [getOrder, guarded_run, Prog.bind_eq, Prog.run_bind, Prog.run_attempt]
  simp only
  cases hc : ((fromCache lib orderId).run E.answer s).1 with
  | ok cached =>
    cases cached with
    | some response => exact absurd hc (h response)
    | none =>
      rw [postgresAlone_congr orderId s ((fromCache lib orderId).run E.answer s).2, postgresAlone,
        guarded_run]
  | error exn =>
    rw [postgresAlone_congr orderId s ((fromCache lib orderId).run E.answer s).2, postgresAlone,
      guarded_run]
    rfl

theorem getOrder_cached {orderId : Bytes} {response : Response}
    (h : ((fromCache lib orderId).run E.answer s).1 = .ok (some response)) :
    respond (getOrder lib orderId) E s = .ok response := by
  rw [getOrder, guarded_run, Prog.bind_eq, Prog.run_bind, Prog.run_attempt]
  simp only [h]
  rfl

/-- A response from the cache is made of the string that Redis answered with. -/
theorem cached_response {orderId : Bytes} {response : Response}
    (h : ((fromCache lib orderId).run E.answer s).1 = .ok (some response)) :
    ∃ str order doc body, E.reply (cString (bytes "order:" ++ orderId)) = some (.string str) ∧
      lib.parse (cString str) = .ok order ∧
      order.assign (bytes "source") (.str (bytes "redis")) = .ok doc ∧ doc.dump = .ok body ∧
      response = ⟨200, body⟩ := by
  unfold fromCache RedisClient.get at h
  simp only [ApiProg.call, Prog.bind_eq, Prog.pure_eq, Prog.call_bind, Prog.ask_bind, Prog.run_ask,
    Backends.answer] at h
  cases hc : s.context with
  | false => simp [hc] at h
  | true =>
    simp only [hc, if_true, Prog.ask_bind, Prog.run_ask, Backends.answer] at h
    cases hr : E.reply (cString (bytes "order:" ++ orderId)) with
    | none => simp [hr, Backends.answer] at h
    | some reply =>
      cases reply with
      | string str =>
        simp only [hr, Prog.ret_bind, ApiProg.log, Prog.call_bind, Prog.run_ask,
          Backends.answer, ApiProg.ofJson] at h
        cases hp : lib.parse (cString str) with
        | error what => simp [hp, Except.mapError] at h
        | ok order =>
          simp only [hp, Except.mapError, Prog.ofExcept_ok, Prog.ret_bind, Prog.run_bind] at h
          split at h
          · rename_i found_ t hf
            simp only [Prog.run_ret, Except.ok.injEq, Option.some.injEq] at h
            subst h
            obtain ⟨doc, body, ha, hd, he⟩ := run_found order (bytes "redis") _
              (congrArg Prod.fst hf)
            exact ⟨str, order, doc, body, rfl, hp, ha, hd, he⟩
          · contradiction
      | nil => simp [hr, ApiProg.log, Backends.answer] at h
      | _ => simp [hr] at h

/-- A value found in Redis is parsed, marked and sent. -/
theorem getOrder_hit {E : Backends} {orderId text : Bytes} {ms : List (Bytes × Json)}
    (noNul : 0 ∉ orderId) (hreply : E.reply (bytes "order:" ++ orderId) = some (.string text))
    (hd : (Json.obj ms).dump = .ok text) (hp : lib.parse text = .ok (.obj ms))
    (stmts : List Bytes) :
    ∃ body,
      (Json.obj (Json.insertMember (bytes "source") (.str (bytes "redis")) ms)).dump = .ok body ∧
      respond (getOrder lib orderId) E ⟨true, stmts⟩ = .ok ⟨200, body⟩ := by
  have hmembers : Json.utf8Members ms = true := (Json.dump_ok_iff (.obj ms)).mp ⟨text, hd⟩
  have hmarked : Json.utf8Members
      (Json.insertMember (bytes "source") (.str (bytes "redis")) ms) = true :=
    Json.utf8Members_insertMember hmembers (by decide) (by decide)
  obtain ⟨body, hb⟩ := (Json.dump_ok_iff (.obj _)).mpr hmarked
  refine ⟨body, hb, getOrder_cached ?_⟩
  have hkey : (0 : UInt8) ∉ bytes "order:" ++ orderId := by
    rw [List.mem_append, not_or]
    exact ⟨by decide, noNul⟩
  simp only [fromCache, RedisClient.get, found, ApiProg.call, ApiProg.log, ApiProg.ofJson,
    Prog.bind_eq, Prog.pure_eq, Prog.call_bind, Prog.ask_bind, Prog.ret_bind, Prog.run_ask,
    Backends.answer, if_true, cString_eq hkey, hreply, cString_eq (Json.noNul_dump _ hd), hp,
    Except.mapError, Prog.ofExcept_ok, Json.assign, hb, Prog.run_ret]

/-- A 200 from Postgres has the five columns that were selected, and its source. -/
theorem postgres_body {orderId body : Bytes} {s : Served}
    (h : respond (postgresAlone lib orderId) E s = .ok ⟨200, body⟩) :
    ∃ doc : Json, doc.dump = .ok body ∧ doc.member (bytes "created_at") = none := by
  rw [postgresAlone, guarded_run, fromPostgres, Prog.bind_eq, Prog.run_bind] at h
  cases ho : (DatabaseClient.getOrderById lib orderId).run E.answer s with
  | mk found t =>
    rw [ho] at h
    rcases found with exn | _ | order
    · cases h
    · cases h
    · obtain ⟨id, items, status, amount, userId, rfl⟩ :=
        getOrderById_members (congrArg Prod.fst ho)
      simp only [ApiProg.log, Prog.bind_eq, Prog.call_bind, Prog.run_ask, Backends.answer] at h
      split at h
      · rename_i response hf
        obtain rfl := Except.ok.inj h
        obtain ⟨doc, body', ha, hd, he⟩ := run_found _ _ _ hf
        obtain rfl := Except.ok.inj ha
        obtain rfl := (Response.mk.inj he).2
        refine ⟨_, hd, ?_⟩
        rw [Json.member, Json.lookup_insertMember]
        rfl
      · cases h

/-- The highest draws there are. -/
def sampleDraws : Draws := ⟨fun _ => Fin.last 15, Fin.last 3⟩

/-- The number 1. -/
def sampleDecimal : Decimal :=
  ⟨false, bytes "1", [], none, List.cons_ne_nil _ _, rfl, rfl, nofun, nofun⟩

/-- Conversions that read what was dumped. -/
def sampleConversions : Conversions where
  parse t := match Json.read t with
    | some j => .ok j
    | none => .error (bytes "parse error")
  asDouble _ := .error (bytes "not a number")
  nullError := bytes "null"
  formatDouble _ := sampleDecimal

end CdcPipeline.Proofs.ApiPrograms
