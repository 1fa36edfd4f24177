import CdcPipeline.Proofs.ApiPrograms
import CdcPipeline.Proofs.ApiWorkers

namespace CdcPipeline.Proofs.CalmServer

open Library Text History Model ApiProcess ApiServer Postgres ServedOrders GeneratedOrders
  ApiHandlers ApiRoutes ApiWorkers

variable {ι κ : Type} [DecidableEq ι] [DecidableEq κ] {E : Setting κ} {s : ApiProcess ι κ} {i : ι}
  {body : Bytes}

omit [DecidableEq ι] [DecidableEq κ] in
theorem close_begin (h : s.transaction = none) (o : StoreOp) : (s.begin i o).close = s := by
  rw [begin, close, ← h]

/-- A call of a handler that nothing comes of. -/
theorem runs_quiet {α : Type} {o : ApiOp} (h : Quiet o) (a : ApiAns o) {k : ApiAns o → ApiProg α}
    {r : Except Exn α} {s' : ApiProcess ι κ}
    (hk : (apiMachine E).Runs (.server i) (k a) s r s') :
    (apiMachine E).Runs (.server i) (.ask o k) s r s' := by
  refine .ask (b := a) (t := s) ⟨a, rfl, a, rfl, ?_⟩ hk
  cases o with
  | exec _ => exact absurd h id
  | commit => exact absurd h id
  | _ => rfl

theorem runs_logged {α : Type} {p : ApiProg α} {e : Bytes → ApiLog} {a : α} {s' : ApiProcess ι κ}
    (h : (apiMachine E).Runs (.server i) p s (.ok a) s') :
    (apiMachine E).Runs (.server i) (p.logged e) s (.ok a) s' :=
  Machine.Runs.bind h.attempt .ret

/-- An order is created, where its id is free and nothing fails. -/
theorem runs_postOrder (draws : Draws) {u : Bytes} {amount items : Json} {text : Bytes}
    (hparts : orderParts E.lib body = .ok (u, amount, items)) (hitems : items.dump = .ok text)
    (hq : 39 ∉ u) (h0 : 0 ∉ u) (hi : 39 ∉ text) {row : OrderRow} {now : Bytes}
    (hrow : E.cols.row ⟨generateUuid draws, u, ⟨(E.lib.formatDouble amount).negative,
      (E.lib.formatDouble amount).unsigned⟩, bytes "CREATED", text⟩ now = .ok row)
    (hid : row.id = generateUuid draws) (htrans : s.transaction = none)
    (hfree : s.table row.id = none) :
    ∃ created, (createdDoc row.id).dump = .ok created ∧
      (apiMachine E).Runs (.server i) (postOrder E.lib body) s (.ok ⟨201, created⟩)
        (s.act i (.insert row)) := by
  obtain ⟨created, hcreated⟩ := createdDoc_dump draws
  have hsql := ofText_insert draws (E.lib.formatDouble amount)
    (fun c hc => Json.printable_dump items hitems hc) hq h0 hi
  refine ⟨created, hid ▸ hcreated, ?_⟩
  have hinsert : (apiMachine E).Runs (.server i)
      (DatabaseClient.createOrder E.lib u amount items) s (.ok (generateUuid draws))
        (s.act i (.insert row)) := by
    refine runs_quiet (o := .draw) trivial draws ?_
    refine runs_logged ?_
    simp only [hitems, ApiProg.ofJson, Except.mapError, Prog.ofExcept_ok, Prog.bind_eq,
      Prog.ret_bind]
    refine .ask ⟨_, rfl, _, rfl, htrans, .inserted hsql hrow hfree⟩ ?_
    refine .ask ⟨_, rfl, _, rfl, _, rfl, .committed⟩ ?_
    rw [close_begin htrans]
    exact runs_quiet (o := .log _) trivial () .ret
  have hcreate : (apiMachine E).Runs (.server i) (createOrder E.lib body) s (.ok ⟨201, created⟩)
      (s.act i (.insert row)) := by
    rw [createOrder_eq, hparts]
    refine Machine.Runs.bind (p := DatabaseClient.createOrder E.lib u amount items) hinsert ?_
    refine runs_quiet (o := .log _) trivial () ?_
    simp only [hcreated, ApiProg.ofJson, Except.mapError, Prog.ofExcept_ok, Prog.bind_eq,
      Prog.ret_bind]
    exact .ret
  exact Machine.Runs.bind (Machine.Runs.attempt hcreate) .ret

/-- A status is set. -/
theorem runs_patchStatus {orderId newStatus status id : Bytes}
    (htext : statusText E.lib body = .ok newStatus)
    (hstatus : E.cols.varchar (cString newStatus) = .ok status)
    (hid : E.cols.uuid (cString orderId) = .ok id) (htrans : s.transaction = none)
    (hthere : (s.table id).isSome = true) :
    (serverMachine E).Runs (.server i) (patchStatus E.lib orderId body) s (.ok statusUpdated)
      (s.act i (.setStatus id status)) := by
  obtain ⟨row, hrow⟩ := Option.isSome_iff_exists.mp hthere
  have hupdate : (serverMachine E).Runs (.server i)
      (DatabaseClient.updateOrderStatus orderId newStatus) s (.ok true)
        (s.act i (.setStatus id status)) := by
    refine Machine.Runs.bind (Machine.Runs.attempt (r := .ok true) ?_) .ret
    refine .ask ⟨_, rfl, htrans, .updated rfl rfl hstatus hid⟩ ?_
    simp only [hrow, Option.toList_some, List.length_singleton]
    refine .ask ⟨_, rfl, _, rfl, .committed⟩ ?_
    rw [close_begin htrans]
    exact .ask (b := ()) ⟨(), rfl, rfl⟩ .ret
  have hpatch : (serverMachine E).Runs (.server i) (updateStatus E.lib orderId body) s
      (.ok statusUpdated) (s.act i (.setStatus id status)) := by
    rw [updateStatus_eq, htext]
    refine Machine.Runs.bind (p := DatabaseClient.updateOrderStatus orderId newStatus) hupdate ?_
    exact .ask (b := ()) ⟨(), rfl, rfl⟩ .ret
  exact Machine.Runs.bind (Machine.Runs.attempt hpatch) .ret

/-- An order is looked up in Postgres, where Redis has none. -/
theorem runs_getOrder {orderId id text : Bytes} {row : OrderRow} (hq : 39 ∉ orderId)
    (h0 : 0 ∉ orderId) (hid : E.cols.uuid orderId = .ok id) (htrans : s.transaction = none)
    (hrow : s.table id = some row) (htext : rowBody E.lib row = .ok text) :
    (apiMachine E).Runs (.server i) (getOrder E.lib orderId) s (.ok ⟨200, text⟩)
      (s.act i (.find id)) := by
  have hcache : (apiMachine E).Runs (.server i) (fromCache E.lib orderId) s (.ok none) s :=
    runs_quiet (o := .contextUsable) trivial true (runs_quiet (o := .redisGet _) trivial (some .nil)
      (runs_quiet (o := .log _) trivial () .ret))
  have hfound : (apiMachine E).Runs (.server i) (fromPostgres E.lib orderId) s (.ok ⟨200, text⟩)
      (s.act i (.find id)) := by
    rcases orderJson_selected E.lib row with ⟨e, -, hdoc⟩ | ⟨order, doc, ho, ha, hdoc⟩
    · rw [rowBody, hdoc] at htext
      cases htext
    · have hlookup : (apiMachine E).Runs (.server i) (DatabaseClient.getOrderById E.lib orderId) s
          (.ok (some order)) (s.act i (.find id)) := by
        refine runs_logged ?_
        refine .ask ⟨_, rfl, _, rfl, htrans, .selected (ofText_select hq h0) hid⟩ ?_
        rw [hrow]
        refine Machine.Runs.bind (p := DatabaseClient.orderJson E.lib row.selected) ?_ .ret
        rw [ho]
        exact .ret
      refine Machine.Runs.bind hlookup (runs_quiet (o := .log _) trivial () ?_)
      rw [rowBody, hdoc] at htext
      simp only [found, ha, ApiProg.ofJson, Except.mapError, Prog.ofExcept_ok, Prog.bind_eq,
        Prog.ret_bind]
      cases hd : doc.dump with
      | error e =>
        change (doc.dump.mapError Exn.json) = _ at htext
        rw [hd] at htext
        cases htext
      | ok body =>
        change (doc.dump.mapError Exn.json) = _ at htext
        rw [hd] at htext
        obtain rfl := Except.ok.inj htext
        exact .ret
  refine Machine.Runs.bind (Machine.Runs.attempt (r := .ok ⟨200, text⟩) ?_) .ret
  exact Machine.Runs.bind hcache.attempt hfound

/-- A request is taken, handled and responded to. -/
theorem runs_serve {x : Incoming} (hx : x ∈ s.inbox) {a : Response} {s' : ApiProcess ι κ}
    (hh : (serverMachine E).Runs (.server i) (handle E.lib x.request)
      { s.note i (.called · x) with inbox := s.inbox.erase x } (.ok a) s') :
    (machine E).Runs (.server i) (server E.lib .start) s (.ok .start)
      { s'.note i (.answered · a) with
        turn := Function.update s'.turn i (s'.turn i + 1)
        outbox := (x.connection, a) :: s'.outbox } := by
  refine Machine.Runs.bind (Machine.Runs.embed (r := .ok ()) ?_) .ret
  refine .ask ⟨x, rfl, hx, rfl⟩ ?_
  refine Machine.Runs.bind (p := handle E.lib x.request) hh ?_
  exact .ask (b := ()) ⟨(), rfl, rfl⟩ .ret

section Worker

open LoadGenerator

variable {k : κ} {r : Request} {α : Type}

theorem runs_still {o : WorkerOp} (a : WorkerAns o) (hc : workerCall E.doubles k o s a s)
    {f : WorkerAns o → WorkerProg α} {res : Except Exn α} {s' : ApiProcess ι κ}
    (hf : (workerMachine E).Runs (.worker k) (f a) s res s') :
    (workerMachine E).Runs (.worker k) (.ask o f) s res s' := .ask ⟨a, rfl, hc⟩ hf

theorem runs_enter (h : s.launched k = true) : (machine E).Runs (.worker k)
    (worker E.lib E.cfg (E.threadId k) .start) s (.ok (.looping [])) s :=
  .ask (b := ()) ⟨rfl, h⟩ .ret

/-- What is left of an exchange once its request is on its way. -/
def waiting (connection : Nat) : WorkerProg (Option Response × Int) := do
  let res ← call (.receive connection)
  let now ← call .steadyClock
  return (res, (now - 0).tdiv 1000000)

theorem leads_exchange : (workerMachine E).Leads (.worker k) (exchange r) s
    (waiting s.sent.length) (s.send (.worker k) r) := by
  refine .ask (b := (0 : Int)) ⟨_, rfl, rfl⟩ ?_
  refine .ask (b := s.sent.length) ⟨_, rfl, rfl, rfl⟩ ?_
  exact .refl

theorem runs_waiting {n : Nat} (res : Option Response)
    (h : ∀ a, res = some a → (n, a) ∈ s.outbox) : (workerMachine E).Runs (.worker k) (waiting n) s
      (.ok (res, 0)) s := by
  refine runs_still (o := .receive _) res ⟨rfl, h⟩ ?_
  exact runs_still (o := .steadyClock) (0 : Int) rfl .ret

theorem runs_exchange : (workerMachine E).Runs (.worker k) (exchange r) s (.ok (none, 0))
    (s.send (.worker k) r) :=
  leads_exchange.trans (runs_waiting none nofun)

/-- What is left of posting an order, once the exchange is over. -/
def posted (lib : Conversions) (threadId : Int) (createdIds : List Bytes)
    (x : Option Response × Int) : WorkerProg (List Bytes) := do
  if statusCode x.1 = 201 then call (.log (.postSent threadId (statusCode x.1) x.2))
  else call (.log (.postFailed threadId (statusCode x.1) x.2))
  return created lib createdIds x.1

theorem leads_postOrder (draws : Draws) {amount : FloatText} (hamount : E.doubles amount)
    (hr : postRequest (generateUuid draws) amount 0 0 = .ok r) : (workerMachine E).Leads
      (.worker k) (fire E.lib (E.threadId k) []) s ((waiting s.sent.length).bind
        (posted E.lib (E.threadId k) [])) (s.send (.worker k) r) := by
  refine .ask (b := (0 : Nat)) ⟨_, rfl, rfl⟩ ?_
  refine .ask (b := (0 : Nat)) ⟨_, rfl, rfl⟩ ?_
  refine .ask (b := draws) ⟨_, rfl, rfl⟩ ?_
  refine .ask (b := amount) ⟨_, rfl, rfl, hamount⟩ ?_
  rw [Prog.ret_bind, hr]
  exact leads_exchange.bind _

/-- The id of the response is kept. -/
theorem runs_posted {n : Nat} {text id : Bytes} (h : (n, ⟨201, text⟩) ∈ s.outbox)
    (hid : newId E.lib text = some id) : (workerMachine E).Runs (.worker k)
      ((waiting n).bind (posted E.lib (E.threadId k) [])) s (.ok [id]) s := by
  refine Machine.Runs.bind (runs_waiting (some ⟨201, text⟩) ?_) ?_
  · intro a ha
    exact Option.some.inj ha ▸ h
  · refine runs_still (o := .log _) () rfl ?_
    have hkept : created E.lib [] (some ⟨201, text⟩) = [id] := by
      rw [created, if_pos rfl, hid]
      rfl
    rw [← hkept]
    exact .ret

/-- An order is shipped, and no response comes. -/
theorem runs_patchOrder {id : Bytes} (hr : patchRequest id (bytes "SHIPPED") = .ok r) :
    (workerMachine E).Runs (.worker k) (fire E.lib (E.threadId k) [id]) s
      (.ok [id]) (s.send (.worker k) r) := by
  refine runs_still (o := .patchChance) (0 : Fin 5) rfl ?_
  have hpatch : (workerMachine E).Runs (.worker k) (patchOrder (E.threadId k) [id]) s (.ok ())
      (s.send (.worker k) r) := by
    refine runs_still (o := .gen) (0 : Nat) rfl ?_
    refine runs_still (o := .statusPick) (1 : Fin 3) rfl ?_
    have hrequest : patchRequest ([id].getD (0 % [id].length) [])
        (statusCycle.getD ((1 : Fin 3) : Nat) []) = .ok r := hr
    rw [Prog.ret_bind]
    simp only [hrequest]
    refine Machine.Runs.bind (p := exchange r) runs_exchange ?_
    exact runs_still (o := .log _) () rfl .ret
  exact Machine.Runs.bind (p := patchOrder (E.threadId k) [id]) hpatch .ret

/-- What is left of a tick, once this much is left of its request. -/
def ticking (cfg : Config) (request : WorkerProg (List Bytes)) : ProcessProg κ Point := do
  let rest : WorkerProg (Option (List Bytes)) := do
    let createdIds ← request
    pace cfg 0
    return some createdIds
  match ← rest.embed .worker (fun _ a => a) with
  | some createdIds => return .looping createdIds
  | none =>
    ApiProcess.call .finish
    return .ended

theorem leads_tick (hrun : s.running = true) {ids : List Bytes} {q : WorkerProg (List Bytes)}
    {t : ApiProcess ι κ} (hq : (workerMachine E).Leads (.worker k)
      (fire E.lib (E.threadId k) ids) s q t) : (machine E).Leads (.worker k)
        (worker E.lib E.cfg (E.threadId k) (.looping ids)) s (ticking E.cfg q) t := by
  refine Machine.Leads.bind _ (Machine.Leads.embed ?_)
  refine .ask (b := true) ⟨_, rfl, rfl, hrun.symm⟩ ?_
  refine .ask (b := (0 : Int)) ⟨_, rfl, rfl⟩ ?_
  exact hq.bind _

theorem runs_ticking {ids : List Bytes} {q : WorkerProg (List Bytes)} {t : ApiProcess ι κ}
    (hq : (workerMachine E).Runs (.worker k) q s (.ok ids) t) :
    (machine E).Runs (.worker k) (ticking E.cfg q) s (.ok (.looping ids)) t := by
  have hpace : (workerMachine E).Runs (.worker k) (pace E.cfg 0) t (.ok ()) t := by
    refine runs_still (o := .steadyClock) (0 : Int) rfl ?_
    change Machine.Runs _ _ (if (0 : Int) - 0 < E.cfg.sleepDuration then _ else _) _ _ _
    split
    · exact runs_still (o := .sleepFor _) () rfl .ret
    · exact .ret
  refine Machine.Runs.bind (Machine.Runs.embed (r := .ok (some ids)) ?_) .ret
  exact Machine.Runs.bind hq (Machine.Runs.bind hpace .ret)

end Worker

section Calm

variable {table₀ table : Table} {h : List (OrderMark ι)}

/-- A run after which thread `i` is free and no request waits. -/
structure Ready (E : Setting κ) (i : ι) (table₀ : Table) (h : List (OrderMark ι)) (table : Table)
    (c : Machine.Config (Thread ι κ) (ProcessOp κ) ProcessAns Exn Point (ApiProcess ι κ)) :
    Prop where
  reach : (machine E).Reach (fresh table₀) c
  free : c.threads (.server i) = server E.lib .start
  transaction : c.shared.transaction = none
  inbox : c.shared.inbox = []
  history : c.shared.history = h
  table : c.shared.table = table

theorem ready_init : Ready E i table₀ [] table₀ ((machine (ι := ι) E).init (fresh table₀)) :=
  ⟨.init, rfl, rfl, rfl, rfl, rfl⟩

variable {c : Machine.Config (Thread ι κ) (ProcessOp κ) ProcessAns Exn Point (ApiProcess ι κ)}

/-- A request that can be served undisturbed is, and its marks are the next. -/
theorem Ready.serves (hc : Ready E i table₀ h table c) {r : Request} (may : E.clients r)
    {o : StoreOp} {b : StoreAns} {table' : Table} (hstep : OrderStore.step o table = (b, table'))
    {a : Response} (hh : ∀ s : ApiProcess ι κ, s.transaction = none → s.table = table →
      (serverMachine E).Runs (.server i) (handle E.lib r) s (.ok a) (s.act i o)) :
    ∃ n m c', Ready E i table₀ (h ++ [.called (i, n) ⟨m, r⟩, .effect (i, n) o b,
      .answered (i, n) a]) table' c' := by
  let s := c.shared.send .outside r
  let x : Incoming := ⟨c.shared.sent.length, r⟩
  have hsent : (machine E).Reach (fresh table₀) ⟨c.threads, s⟩ := .step hc.reach (.env ⟨may⟩)
  have hx : x ∈ s.inbox := List.mem_cons_self
  have hnext := hsent.runs hc.free (runs_serve hx (hh _ hc.transaction hc.table))
  refine ⟨c.shared.turn i, c.shared.sent.length, _, hnext, Machine.Config.resume_self ..,
    hc.transaction, ?_, ?_, ?_⟩
  · change s.inbox.erase x = []
    simp only [s, x, send, List.erase_cons_head, hc.inbox]
  · change c.shared.history ++ [.called (i, c.shared.turn i) x] ++
      [.effect (i, c.shared.turn i) o (OrderStore.step o c.shared.table).1] ++
      [.answered (i, c.shared.turn i) a] = _
    rw [hc.history, hc.table, hstep, List.append_assoc, List.append_assoc]
    rfl
  · change (OrderStore.step o c.shared.table).2 = _
    rw [hc.table, hstep]

end Calm

section Sample

open ApiOutline ApiPrograms

def sampleAmount : FloatText := ⟨bytes "1.0", rfl, rfl⟩

def sampleSetting : Setting Unit where
  lib := { sampleConversions with asDouble := fun _ => .ok sampleAmount }
  cols :=
    { uuid := fun t => if isUuid t then .ok t else .error (bytes "invalid input syntax")
      decimal := fun _ => .ok (bytes "1.00")
      varchar := .ok
      jsonb := .ok }
  doubles _ := True
  clients := Clean { sampleConversions with asDouble := fun _ => .ok sampleAmount }
  cfg := ⟨1000, 10⟩
  apiHost := bytes "localhost"
  apiPort := 8080
  workers := [()]
  threadId _ := 0

theorem sample_parse {j : Json} {t : Bytes} (h : j.dump = .ok t) :
    sampleSetting.lib.parse t = .ok j := by
  simp only [sampleSetting, sampleConversions, Json.read_dump h]

theorem sample_libraries : Libraries sampleSetting where
  reads _ _ _ h := sample_parse h
  standard draws := by
    simp only [sampleSetting, uuid_isUuid, if_true]
  clients _ h := h

def sampleId : Bytes := generateUuid sampleDraws

def sampleOrder : Json :=
  .obj [(bytes "items", .arr []), (bytes "total_amount", .int 1), (bytes "user_id", .str sampleId)]

def sampleRow (status : Bytes) : OrderRow :=
  ⟨sampleId, sampleId, bytes "1.00", status, bytes "[]", some [], some []⟩

def samplePost (body : Bytes) : Request := ⟨.post, Request.ordersPath, body⟩

def samplePatch (body : Bytes) : Request :=
  ⟨.patch, bytes "/api/v1/orders/" ++ sampleId ++ bytes "/status", body⟩

def sampleGet : Request := ⟨.get, bytes "/api/v1/orders/" ++ sampleId, []⟩

theorem sample_dumps : (∃ order, sampleOrder.dump = .ok order) ∧
    ∃ status, (Json.obj [(bytes "status", .str (bytes "SHIPPED"))]).dump = .ok status := by
  have hid : Utf8.valid sampleId = true := uuid_utf8 sampleDraws
  refine ⟨(Json.dump_ok_iff _).mpr ?_, (Json.dump_ok_iff _).mpr (by decide)⟩
  simp only [sampleOrder, Json.utf8, Json.utf8Members, Json.utf8Items, hid]
  decide

theorem sample_order {order : Bytes} (h : sampleOrder.dump = .ok order) :
    orderParts sampleSetting.lib order = .ok (sampleId, .int 1, .arr []) := by
  rw [orderParts, sample_parse h]
  rfl

theorem sample_shown : ∃ shown,
    rowBody sampleSetting.lib (sampleRow (bytes "SHIPPED")) = .ok shown := by
  have hitems : sampleSetting.lib.parse (bytes "[]") = .ok (.arr []) :=
    sample_parse (j := .arr []) rfl
  have hid : Utf8.valid sampleId = true := uuid_utf8 sampleDraws
  obtain ⟨shown, hshown⟩ := (Json.dump_ok_iff (.obj [(bytes "id", .str sampleId),
    (bytes "items_jsonb", .arr []), (bytes "source", .str (bytes "postgres")),
    (bytes "status", .str (bytes "SHIPPED")), (bytes "total_amount", .float sampleAmount),
    (bytes "user_id", .str sampleId)])).mpr (by
      simp only [Json.utf8, Json.utf8Members, Json.utf8Items, hid]
      decide)
  refine ⟨shown, ?_⟩
  have hdoc : rowDoc sampleSetting.lib (sampleRow (bytes "SHIPPED")) = .ok (.obj [
      (bytes "id", .str sampleId), (bytes "items_jsonb", .arr []),
      (bytes "source", .str (bytes "postgres")), (bytes "status", .str (bytes "SHIPPED")),
      (bytes "total_amount", .float sampleAmount), (bytes "user_id", .str sampleId)]) := by
    rw [rowDoc, show (sampleRow (bytes "SHIPPED")).items = bytes "[]" from rfl, hitems]
    rfl
  rw [rowBody, hdoc]
  exact congrArg (Except.mapError Exn.json) hshown

theorem sample_post_route (body : Bytes) : (samplePost body).route = some (.createOrder body) := by
  simp only [samplePost, Request.route, if_true]

theorem sample_patch_route (body : Bytes) :
    (samplePatch body).route = some (.updateStatus sampleId body) := by
  simp only [samplePatch, Request.route, sampleId, match_status (uuid_segment sampleDraws),
    Option.map_some]

theorem sample_get_route : sampleGet.route = some (.getOrder sampleId) := by
  have hsegment : Request.isSegment sampleId = true := uuid_segment sampleDraws
  simp [sampleGet, Request.route, Request.matchOrder, below_orders, hsegment]

theorem sample_bytes : 39 ∉ sampleId ∧ 0 ∉ sampleId :=
  ⟨uuid_not_mem sampleDraws (by decide) (by decide),
    uuid_not_mem sampleDraws (by decide) (by decide)⟩

theorem sample_uuid : sampleSetting.cols.uuid sampleId = .ok sampleId :=
  sample_libraries.standard sampleDraws

theorem sample_cut : sampleSetting.cols.uuid (cString sampleId) = .ok sampleId := by
  rw [cString_eq sample_bytes.2, sample_uuid]

theorem sample_clean {order : Bytes} (horder : sampleOrder.dump = .ok order) (status : Bytes) :
    sampleSetting.clients (samplePost order) ∧ sampleSetting.clients (samplePatch status) ∧
      sampleSetting.clients sampleGet := by
  refine ⟨?_, ?_, ?_⟩
  · intro u d t h
    change orderText sampleSetting.lib order = _ at h
    rw [orderText_eq, sample_order horder] at h
    obtain ⟨rfl, htext⟩ := Prod.mk.inj (Except.ok.inj h)
    obtain ⟨-, rfl⟩ := Prod.mk.inj htext
    exact ⟨sample_bytes.1, sample_bytes.2, by decide⟩
  · change Clean sampleSetting.lib (samplePatch status)
    rw [Clean, sample_patch_route]
    trivial
  · change Clean sampleSetting.lib sampleGet
    rw [Clean, sample_get_route]
    exact sample_bytes

variable {s : ApiProcess Unit Unit}

theorem sample_posts {order created : Bytes} (horder : sampleOrder.dump = .ok order)
    (hcreated : (createdDoc sampleId).dump = .ok created) (htrans : s.transaction = none)
    (ht : s.table = OrderStore.empty) : (serverMachine sampleSetting).Runs (.server ())
      (handle sampleSetting.lib (samplePost order)) s (.ok ⟨201, created⟩)
      (s.act () (.insert (sampleRow (bytes "CREATED")))) := by
  have hrow : sampleSetting.cols.row ⟨sampleId, sampleId, ⟨sampleDecimal.negative,
      sampleDecimal.unsigned⟩, bytes "CREATED", bytes "[]"⟩ [] =
        .ok (sampleRow (bytes "CREATED")) := by
    rw [ColumnTypes.row, sample_uuid]
    rfl
  obtain ⟨text, htext, hruns⟩ := runs_postOrder (i := ()) (s := s) sampleDraws (sample_order horder)
    rfl sample_bytes.1 sample_bytes.2 (by decide) hrow rfl htrans (by rw [ht]; rfl)
  obtain rfl : text = created := Except.ok.inj (htext.symm.trans hcreated)
  exact hruns.embed

theorem sample_ships {r : Request}
    (hr : LoadGenerator.patchRequest sampleId (bytes "SHIPPED") = .ok r)
    (htrans : s.transaction = none) (ht : (s.table sampleId).isSome = true) :
    (serverMachine sampleSetting).Runs (.server ()) (handle sampleSetting.lib r) s
      (.ok statusUpdated) (s.act () (.setStatus sampleId (bytes "SHIPPED"))) := by
  obtain ⟨hroute, hdump⟩ := patch_route hr
  rw [handle, hroute]
  exact runs_patchStatus (status_reads (sample_parse hdump)) rfl sample_cut htrans ht

theorem sample_patches {status : Bytes}
    (hstatus : (Json.obj [(bytes "status", .str (bytes "SHIPPED"))]).dump = .ok status)
    (htrans : s.transaction = none) (ht : (s.table sampleId).isSome = true) :
    (serverMachine sampleSetting).Runs (.server ())
      (handle sampleSetting.lib (samplePatch status)) s (.ok statusUpdated)
      (s.act () (.setStatus sampleId (bytes "SHIPPED"))) :=
  sample_ships (by rw [LoadGenerator.patchRequest, hstatus]; rfl) htrans ht

theorem sample_gets {shown : Bytes}
    (hshown : rowBody sampleSetting.lib (sampleRow (bytes "SHIPPED")) = .ok shown)
    (htrans : s.transaction = none) (ht : s.table sampleId = some (sampleRow (bytes "SHIPPED"))) :
    (serverMachine sampleSetting).Runs (.server ()) (handle sampleSetting.lib sampleGet) s
      (.ok ⟨200, shown⟩) (s.act () (.find sampleId)) := by
  rw [handle, sample_get_route]
  exact (runs_getOrder sample_bytes.1 sample_bytes.2 sample_uuid htrans ht hshown).embed

/-- An order is posted, and shipped. -/
theorem sample_shipped : ∃ order status created n₁ m₁ n₂ m₂ table c,
    table sampleId = some (sampleRow (bytes "SHIPPED")) ∧
    Ready sampleSetting () OrderStore.empty ([
      .called ((), n₁) ⟨m₁, samplePost order⟩,
      .effect ((), n₁) (.insert (sampleRow (bytes "CREATED"))) (.inserted true),
      .answered ((), n₁) ⟨201, created⟩] ++ [
      .called ((), n₂) ⟨m₂, samplePatch status⟩,
      .effect ((), n₂) (.setStatus sampleId (bytes "SHIPPED")) (.updated true),
      .answered ((), n₂) statusUpdated]) table c := by
  obtain ⟨⟨order, horder⟩, status, hstatus⟩ := sample_dumps
  obtain ⟨created, hcreated⟩ := createdDoc_dump sampleDraws
  obtain ⟨hpost, hpatch, -⟩ := sample_clean horder status
  obtain ⟨n₁, m₁, c₁, h₁⟩ := (ready_init (ι := Unit) (E := sampleSetting) (i := ())).serves hpost
    (OrderStore.step_insert rfl) fun s htrans ht => sample_posts horder hcreated htrans ht
  have hthere : Function.update OrderStore.empty sampleId (some (sampleRow (bytes "CREATED")))
      sampleId = some (sampleRow (bytes "CREATED")) := Function.update_self ..
  obtain ⟨n₂, m₂, c₂, h₂⟩ := h₁.serves hpatch (OrderStore.step_setStatus hthere _)
    fun s htrans ht => sample_patches hstatus htrans (by rw [ht]; exact hthere ▸ rfl)
  exact ⟨order, status, created, n₁, m₁, n₂, m₂, _, c₂, Function.update_self .., h₂⟩

/-- An order is posted, shipped and looked up, one request after another. -/
theorem sample_run : ∃ order status created shown n₁ m₁ n₂ m₂ n₃ m₃ table c,
    Ready sampleSetting () OrderStore.empty ([
      .called ((), n₁) ⟨m₁, samplePost order⟩,
      .effect ((), n₁) (.insert (sampleRow (bytes "CREATED"))) (.inserted true),
      .answered ((), n₁) ⟨201, created⟩] ++ [
      .called ((), n₂) ⟨m₂, samplePatch status⟩,
      .effect ((), n₂) (.setStatus sampleId (bytes "SHIPPED")) (.updated true),
      .answered ((), n₂) statusUpdated] ++ [
      .called ((), n₃) ⟨m₃, sampleGet⟩,
      .effect ((), n₃) (.find sampleId) (.row (some (sampleRow (bytes "SHIPPED")))),
      .answered ((), n₃) ⟨200, shown⟩]) table c := by
  obtain ⟨order, status, created, n₁, m₁, n₂, m₂, table, c₂, hthere, h₂⟩ := sample_shipped
  obtain ⟨⟨_, horder⟩, -⟩ := sample_dumps
  obtain ⟨-, -, hget⟩ := sample_clean horder status
  obtain ⟨shown, hshown⟩ := sample_shown
  obtain ⟨n₃, m₃, c₃, h₃⟩ := h₂.serves hget (OrderStore.step_find hthere)
    fun s htrans ht => sample_gets hshown htrans (by rw [ht]; exact hthere)
  exact ⟨order, status, created, shown, n₁, m₁, n₂, m₂, n₃, m₃, _, c₃, h₃⟩

theorem sample_requests : (∃ r, LoadGenerator.postRequest sampleId sampleAmount 0 0 = .ok r) ∧
    ∃ r, LoadGenerator.patchRequest sampleId (bytes "SHIPPED") = .ok r := by
  obtain ⟨order, horder⟩ := (Json.dump_ok_iff (LoadGenerator.payload sampleId sampleAmount 0 0)).mpr
    (by
      have hid : Utf8.valid sampleId = true := uuid_utf8 sampleDraws
      simp only [LoadGenerator.payload, Json.utf8, Json.utf8Members, Json.utf8Items, hid]
      decide)
  obtain ⟨-, status, hstatus⟩ := sample_dumps
  exact ⟨⟨_, by rw [LoadGenerator.postRequest, horder]; rfl⟩,
    _, by rw [LoadGenerator.patchRequest, hstatus]; rfl⟩

theorem sample_loads {r : Request}
    (hr : LoadGenerator.postRequest sampleId sampleAmount 0 0 = .ok r) : ∃ row created,
    row.id = sampleId ∧ LoadGenerator.newId sampleSetting.lib created = some sampleId ∧
    ∀ s : ApiProcess Unit Unit, s.transaction = none → s.table = OrderStore.empty →
      (serverMachine sampleSetting).Runs (.server ()) (handle sampleSetting.lib r) s
        (.ok ⟨201, created⟩) (s.act () (.insert row)) := by
  obtain ⟨hroute, hdump⟩ := post_route hr
  have hparse := sample_parse hdump
  obtain ⟨text, htext, hq⟩ := payload_reads hdump hparse
  obtain ⟨items, hparts⟩ : ∃ items,
      orderParts sampleSetting.lib r.body = .ok (sampleId, .float sampleAmount, items) :=
    ⟨_, by rw [orderParts, hparse]; rfl⟩
  rw [orderText_eq, hparts] at htext
  obtain ⟨_, hp, htext⟩ := Json.bind_ok.mp htext
  obtain rfl := Except.ok.inj hp
  obtain ⟨text', hitems, htext⟩ := Json.bind_ok.mp htext
  obtain rfl : text' = text := (Prod.mk.inj (Prod.mk.inj (Except.ok.inj htext)).2).2
  have hrow : sampleSetting.cols.row ⟨sampleId, sampleId, ⟨sampleDecimal.negative,
      sampleDecimal.unsigned⟩, bytes "CREATED", text'⟩ [] =
      .ok { sampleRow (bytes "CREATED") with items := text' } := by
    rw [ColumnTypes.row, sample_uuid]
    rfl
  obtain ⟨created, hcreated⟩ := createdDoc_dump sampleDraws
  refine ⟨{ sampleRow (bytes "CREATED") with items := text' }, created, rfl, ?_, ?_⟩
  · rw [LoadGenerator.newId, sample_parse hcreated]
    rfl
  intro s htrans ht
  obtain ⟨text, htext, hruns⟩ := runs_postOrder (i := ()) (s := s) sampleDraws hparts hitems
    sample_bytes.1 sample_bytes.2 hq hrow rfl htrans (by rw [ht]; rfl)
  obtain rfl : text = created := Except.ok.inj (htext.symm.trans hcreated)
  rw [handle, hroute]
  exact hruns.embed

/-- The load generator starts, its first order is created and its id kept, and then shipped. -/
theorem sample_load : ∃ c r₁ r₂ created, (machine sampleSetting).Reach
    (fresh OrderStore.empty : ApiProcess Unit Unit) c ∧
    c.shared.sent = [(.worker (), r₁), (.worker (), r₂)] ∧
    c.shared.outbox = [(1, statusUpdated), (0, ⟨201, created⟩)] ∧
    c.threads (.worker ()) = .ret (.looping [sampleId]) := by
  obtain ⟨⟨r₁, hr₁⟩, r₂, hr₂⟩ := sample_requests
  have hstart : (machine sampleSetting).Runs (.main : Thread Unit Unit)
      (main sampleSetting.cfg sampleSetting.apiHost sampleSetting.apiPort [()] .start)
      (fresh OrderStore.empty) (.ok .started)
      { (fresh OrderStore.empty : ApiProcess Unit Unit) with
        running := true, launched := Function.update (fun _ => false) () true } := by
    refine .ask (b := ()) rfl ?_
    refine .ask (b := ()) rfl ?_
    exact .ask (b := ()) rfl .ret
  have hmain := Machine.Reach.runs (Machine.Reach.init (M := machine sampleSetting)) rfl hstart
  have hworker := hmain.runs rfl (runs_enter (E := sampleSetting) (k := ()) rfl)
  have hposted := hworker.leads (Machine.Config.resume_self ..)
    (leads_tick (E := sampleSetting) (k := ()) rfl (leads_postOrder sampleDraws trivial hr₁))
  obtain ⟨row, created, hrow, hid, hhandle⟩ := sample_loads hr₁
  have hcreated := hposted.runs (i := .server ()) rfl
    (runs_serve List.mem_cons_self (hhandle _ rfl rfl))
  have hkept := hcreated.runs rfl
    (runs_ticking (E := sampleSetting) (k := ()) (runs_posted List.mem_cons_self hid))
  have hsent := hkept.leads (Machine.Config.resume_self ..)
    ((leads_tick (E := sampleSetting) (k := ()) rfl (runs_patchOrder hr₂)).trans
      (runs_ticking .ret))
  have hthere : (OrderStore.step (.insert row) OrderStore.empty).2 sampleId = some row := by
    rw [OrderStore.step_insert rfl, ← hrow]
    exact Function.update_self row.id (some row) OrderStore.empty
  have hshipped := hsent.runs (i := .server ()) rfl
    (runs_serve List.mem_cons_self (sample_ships hr₂ rfl (by exact congrArg Option.isSome hthere)))
  exact ⟨_, r₁, r₂, created, hshipped, rfl, rfl, rfl⟩

end Sample

end CdcPipeline.Proofs.CalmServer
