import CdcPipeline.Proofs.ApiHandlers

namespace CdcPipeline.Proofs.ApiRoutes

open Library Text History Model ApiProcess ApiServer Postgres ServedOrders GeneratedOrders
  ApiOutline ApiCalls ApiHandlers

variable {ι κ : Type} [DecidableEq ι] [DecidableEq κ] {E : Setting κ} {table₀ : Table}
  {s : ApiProcess ι κ} {i : ι} {x : Incoming} {orderId body : Bytes}

section Get

theorem quiet_ofJson {α : Type} (r : Except Bytes α) : (ApiProg.ofJson r).Asks Quiet :=
  Prog.asks_ofExcept _ _

/-- What is found in Redis is answered with `redis` for its source. -/
theorem found_yields (order : Json) : (found order (bytes "redis")).Yields FromRedis := by
  unfold found ApiProg.ofJson
  cases ha : order.assign (bytes "source") (.str (bytes "redis")) with
  | error e => trivial
  | ok doc =>
    obtain ⟨ms, rfl, hsource⟩ := Json.assign_ok ha
    cases hd : (Json.obj ms).dump with
    | error e => simp [hd, Except.mapError, Prog.Yields]
    | ok text =>
      simp only [hd, Except.mapError, Prog.ofExcept_ok, Prog.bind_eq, Prog.ret_bind]
      exact ⟨rfl, ms, hd, hsource⟩

theorem quiet_get (key : Bytes) : (RedisClient.get key).Asks Quiet := by
  refine ⟨trivial, fun usable => ?_⟩
  cases usable with
  | false => trivial
  | true =>
    refine ⟨trivial, fun reply => ?_⟩
    cases reply with
    | none => exact ⟨trivial, fun _ => trivial⟩
    | some reply => cases reply <;> trivial

theorem quiet_fromCache (lib : Conversions) : (fromCache lib orderId).Asks Quiet := by
  refine (quiet_get _).bind fun r => ?_
  cases r with
  | none => exact ⟨trivial, fun _ => trivial⟩
  | some text =>
    refine Prog.Asks.bind (p := ApiProg.log _) ⟨trivial, fun _ => trivial⟩ fun _ => ?_
    refine (quiet_ofJson _).bind fun order => Prog.Asks.bind ?_ fun _ => trivial
    exact (quiet_ofJson _).bind fun doc => (quiet_ofJson _).bind fun _ => trivial

theorem fromCache_yields (lib : Conversions) :
    (fromCache lib orderId).Yields fun res => ∀ a, res = some a → FromRedis a := by
  refine Prog.Yields.bind _ fun r => ?_
  cases r with
  | none => exact fun _ => nofun
  | some text =>
    intro _
    refine Prog.Yields.bind (ApiProg.ofJson _) fun order => ?_
    refine (found_yields order).seq fun a ha => ?_
    rintro _ ⟨⟩
    exact ha

/-- A row becomes its document, or the exception that reading it raises. -/
theorem orderJson_selected (lib : Conversions) (row : OrderRow) :
    (∃ e, DatabaseClient.orderJson lib row.selected = .raise e ∧ rowDoc lib row = .error e) ∨
      ∃ order doc, DatabaseClient.orderJson lib row.selected = .ret order ∧
        order.assign (bytes "source") (.str (bytes "postgres")) = .ok doc ∧
        rowDoc lib row = .ok doc := by
  have hamount : (DatabaseClient.asString lib row.selected 2 >>= lib.asDouble) =
      lib.asDouble row.totalAmount := rfl
  unfold DatabaseClient.orderJson rowDoc
  rw [hamount]
  cases lib.asDouble row.totalAmount with
  | error e => exact Or.inl ⟨_, rfl, rfl⟩
  | ok amount =>
    have hitems : DatabaseClient.asString lib row.selected 4 = .ok row.items := rfl
    simp only [hitems, ApiProg.ofPqxx, ApiProg.ofJson, Except.mapError, Prog.ofExcept_ok,
      Prog.bind_eq, Prog.ret_bind]
    cases lib.parse row.items with
    | error e => exact Or.inl ⟨_, rfl, rfl⟩
    | ok items => exact Or.inr ⟨_, _, rfl, rfl, rfl⟩

/-- The lookup in Postgres, and what its result is made of. -/
theorem safe_getOrderById (libs : Libraries E)
    (hroute : x.request.route = some (.getOrder orderId)) (hclean : Clean E.lib x.request)
    (h : Called i x s) : (outline E table₀).safe (apiMachine E) (.server i)
      (DatabaseClient.getOrderById E.lib orderId)
      (fun order s => match order with
        | none => ∃ id, Acted E i x (.find id) (.row none) s
        | some order => ∃ id row doc, Acted E i x (.find id) (.row (some row)) s ∧
          order.assign (bytes "source") (.str (bytes "postgres")) = .ok doc ∧
          rowDoc E.lib row = .ok doc)
      (fun _ => Answerable E i x internalServerError) s := by
  rw [Clean, hroute] at hclean
  have hsql := ofText_select hclean.1 hclean.2
  refine safe_logged (fun _ => answerable_stable) ?_
  refine Outline.safe_ask called_stable ((call_select libs hsql ?_).under.under) h ?_
  · exact fun id r hid => (means_get hroute).mpr ⟨id, rfl, hid⟩
  · intro r t ht
    cases r with
    | error e => exact Or.inl ⟨ht, (failed_get hroute).mpr (Or.inr rfl)⟩
    | ok rows =>
      obtain ⟨id, found, rfl, ht⟩ := ht
      cases found with
      | none => exact ⟨id, ht⟩
      | some row =>
        change (outline E table₀).safe _ _
          ((DatabaseClient.orderJson E.lib row.selected).bind _) _ _ _
        rcases orderJson_selected E.lib row with ⟨e, he, hdoc⟩ | ⟨order, doc, ho, ha, hdoc⟩
        · rw [he]
          have hbody : rowBody E.lib row = .error e := by rw [rowBody, hdoc]; rfl
          exact Or.inr ⟨_, _, ht, Or.inr ⟨rfl, e, hbody⟩⟩
        · rw [ho]
          exact ⟨id, row, doc, ht, ha, hdoc⟩

/-- Postgres answers with the row as it is then, or the lookup fails. -/
theorem safe_fromPostgres (libs : Libraries E) (hroute : x.request.route = some (.getOrder orderId))
    (hclean : Clean E.lib x.request) (h : Called i x s) :
    (outline E table₀).safe (apiMachine E) (.server i) (fromPostgres E.lib orderId)
      (Answerable E i x) (fun _ => Answerable E i x internalServerError) s := by
  refine Outline.safe_seq (safe_getOrderById libs hroute hclean h) ?_
  intro order t ht
  cases order with
  | none =>
    obtain ⟨id, ht⟩ := ht
    exact Or.inr ⟨_, _, ht, rfl⟩
  | some order =>
    obtain ⟨id, row, doc, ht, ha, hdoc⟩ := ht
    refine safe_log acted_stable ht ?_
    intro t ht
    simp only [found, ha, ApiProg.ofJson, Except.mapError, Prog.ofExcept_ok, Prog.bind_eq,
      Prog.ret_bind]
    have hbody : rowBody E.lib row = doc.dump.mapError .json := by rw [rowBody, hdoc]; rfl
    cases hd : doc.dump with
    | error e =>
      rw [hd] at hbody
      exact Or.inr ⟨_, _, ht, Or.inr ⟨rfl, _, hbody⟩⟩
    | ok text =>
      rw [hd] at hbody
      exact Or.inr ⟨_, _, ht, Or.inl ⟨text, hbody, rfl⟩⟩

theorem safe_getOrder (libs : Libraries E) (hroute : x.request.route = some (.getOrder orderId))
    (hclean : Clean E.lib x.request) (h : Called i x s) :
    (outline E table₀).safe (apiMachine E) (.server i) (getOrder E.lib orderId)
      (Answerable E i x) (fun _ _ => False) s := by
  have hcache : (outline E table₀).safe (apiMachine E) (.server i) (fromCache E.lib orderId)
      (fun res s => (∀ a, res = some a → FromRedis a) ∧ Called i x s) (fun _ => Called i x) s :=
    Outline.safe_yields called_stable (fun _ ho => call_quiet ho) (quiet_fromCache _)
      (fromCache_yields _) h
  refine Outline.safe_seq (Outline.safe_attempt (Q := Answerable E i x)
    (X := fun _ => Answerable E i x internalServerError) ?_) ?_
  · refine Outline.safe_seq (Outline.safe_attempt hcache) ?_
    intro r t ht
    cases r with
    | error exn =>
      exact safe_log called_stable ht fun t ht => safe_fromPostgres libs hroute hclean ht
    | ok res => cases res with
      | none => exact safe_fromPostgres libs hroute hclean ht.2
      | some a => exact Or.inl ⟨ht.2, (failed_get hroute).mpr (Or.inl (ht.1 a rfl))⟩
  · intro r t ht
    cases r with
    | ok a => exact ht
    | error exn => exact safe_log answerable_stable ht fun _ h => h

end Get

section Patch

theorem call_still {o : ServerOp} (h : Muted o) {P : ApiProcess ι κ → Prop} :
    (outline E table₀).Call (serverMachine E) (.server i) o P (fun _ => P) :=
  (call_muted h).under

theorem updateStatus_eq (lib : Conversions) : updateStatus lib orderId body =
    (ServerProg.api (ApiProg.ofJson (statusText lib body))).bind fun newStatus => do
      if ← DatabaseClient.updateOrderStatus orderId newStatus then
        ServerProg.log (.apiOrderStatusUpdated orderId newStatus)
        return statusUpdated
      else return orderNotFound := by
  simp only [updateStatus, statusText, ofJson_bind, ServerProg.api, Prog.embed_bind, Prog.bind_bind,
    Prog.bind_eq]

/-- The update that an exception leaves behind a `PATCH`, if it leaves one. -/
def Unsure (E : Setting κ) (i : ι) (x : Incoming) (s : ApiProcess ι κ) : Prop :=
  Called i x s ∨ ∃ id status b, Acted E i x (.setStatus id status) (.updated b) s

omit [DecidableEq κ] in
theorem unsure_stable : (outline E table₀).Stable (.server i) (Unsure (κ := κ) E i x) := by
  rintro s s' hr (h | ⟨id, status, b, h⟩)
  · exact Or.inl (h.stable hr)
  · exact Or.inr ⟨id, status, b, h.stable hr⟩

omit [DecidableEq κ] in
theorem unsure_error (hroute : x.request.route = some (.updateStatus orderId body))
    (htext : ∃ v, statusText E.lib body = .ok v) (h : Unsure E i x s) :
    Answerable E i x internalServerError s := by
  rcases h with h | ⟨id, status, b, h⟩
  · exact Or.inl ⟨h, (failed_update hroute).mpr (Or.inr ⟨rfl, htext⟩)⟩
  · exact Or.inr ⟨_, _, h, Or.inr rfl⟩

/-- The status is set and committed, or it is in doubt. -/
theorem safe_updateOrderStatus (libs : Libraries E)
    (hroute : x.request.route = some (.updateStatus orderId body)) {newStatus : Bytes}
    (htext : statusText E.lib body = .ok newStatus) (h : Called i x s) :
    (outline E table₀).safe (serverMachine E) (.server i)
      (DatabaseClient.updateOrderStatus orderId newStatus)
      (fun b s => ∃ id status, Acted E i x (.setStatus id status) (.updated b) s)
      (fun e s => (∃ what, e = .other what) ∧ Unsure E i x s) s := by
  have hupdate : (outline E table₀).safe (serverMachine E) (.server i) (do
      let r ← ServerProg.call (.execParams DatabaseClient.updateStatusSql
        [cString newStatus, cString orderId])
      let affectedRows ← ServerProg.api (ApiProg.ofPqxx r)
      let r ← ServerProg.call (.api .commit)
      ServerProg.api (ApiProg.ofPqxx r)
      if 0 < affectedRows then
        ServerProg.log (.orderStatusUpdatedDb orderId newStatus)
        return true
      else return false)
      (fun b s => ∃ id status, Acted E i x (.setStatus id status) (.updated b) s)
      (fun e s => (∃ what, e = .other what) ∧ Unsure E i x s) s := by
    refine Outline.safe_ask called_stable ((call_update ?_).under) h ?_
    · intro id status b hstatus hid
      exact (means_update hroute).mpr ⟨id, status, rfl, ⟨newStatus, htext, hstatus⟩, hid⟩
    intro r t ht
    cases r with
    | error e => exact ⟨⟨e, rfl⟩, Or.inl ht⟩
    | ok n =>
      obtain ⟨id, status, ho⟩ := ht
      refine Outline.safe_ask open_stable ((call_commit libs).under) ho ?_
      intro res t ht
      cases res with
      | error e =>
        rcases ht with ht | ht
        · exact ⟨⟨e, rfl⟩, Or.inl ht⟩
        · exact ⟨⟨e, rfl⟩, Or.inr ⟨id, status, _, ht⟩⟩
      | ok u =>
        change (outline E table₀).safe _ _ (if 0 < n then _ else _) _ _ _
        by_cases hn : 0 < n
        · rw [if_pos hn]
          rw [decide_eq_true hn] at ht
          exact Outline.safe_ask acted_stable (call_still (o := .log _) trivial) ht
            fun _ t ht => ⟨id, status, ht⟩
        · rw [if_neg hn]
          rw [decide_eq_false hn] at ht
          exact ⟨id, status, ht⟩
  refine Outline.safe_seq (Outline.safe_attempt hupdate) ?_
  intro r t ht
  cases r with
  | ok a => exact ht
  | error exn =>
    exact Outline.safe_ask (fun _ _ hr h => ⟨h.1, unsure_stable _ _ hr h.2⟩)
      (call_still (o := .log _) trivial) ht fun _ _ h => h

theorem safe_updateStatus (libs : Libraries E)
    (hroute : x.request.route = some (.updateStatus orderId body)) (h : Called i x s) :
    (outline E table₀).safe (serverMachine E) (.server i) (updateStatus E.lib orderId body)
      (Answerable E i x) (fun e s => match e with
        | .json _ => Answerable E i x invalidPayload s
        | .other _ => Answerable E i x internalServerError s) s := by
  rw [updateStatus_eq]
  cases htext : statusText E.lib body with
  | error e => exact Or.inl ⟨h, (failed_update hroute).mpr (Or.inl ⟨rfl, e, htext⟩)⟩
  | ok newStatus =>
    change (outline E table₀).safe _ _
      ((DatabaseClient.updateOrderStatus orderId newStatus).bind _) _ _ _
    refine Outline.safe_seq (Outline.safe_mono (fun _ _ h => h) ?_
      (safe_updateOrderStatus libs hroute htext h)) ?_
    · rintro e t ⟨⟨what, rfl⟩, ht⟩
      exact unsure_error hroute ⟨_, htext⟩ ht
    · rintro b t ⟨id, status, ht⟩
      cases b with
      | true =>
        exact Outline.safe_ask acted_stable (call_still (o := .log _) trivial) ht
          fun _ t ht => Or.inr ⟨_, _, ht, Or.inl rfl⟩
      | false => exact Or.inr ⟨_, _, ht, Or.inl rfl⟩

theorem safe_patchStatus (libs : Libraries E)
    (hroute : x.request.route = some (.updateStatus orderId body)) (h : Called i x s) :
    (outline E table₀).safe (serverMachine E) (.server i) (patchStatus E.lib orderId body)
      (Answerable E i x) (fun _ _ => False) s := by
  refine Outline.safe_seq (Outline.safe_attempt (safe_updateStatus libs hroute h)) ?_
  intro r t ht
  cases r with
  | ok a => exact ht
  | error e => cases e with
    | json what =>
      exact Outline.safe_ask answerable_stable (call_still (o := .api (.log _)) trivial) ht
        fun _ _ h => h
    | other what =>
      exact Outline.safe_ask answerable_stable (call_still (o := .api (.log _)) trivial) ht
        fun _ _ h => h

end Patch

theorem safe_handle (libs : Libraries E) (hclean : Clean E.lib x.request) (h : Called i x s) :
    (outline E table₀).safe (serverMachine E) (.server i) (handle E.lib x.request)
      (Answerable E i x) (fun _ _ => False) s := by
  unfold handle
  cases hroute : x.request.route with
  | none => exact Or.inl ⟨h, (failed_none hroute).mpr rfl⟩
  | some route => cases route with
    | createOrder body => exact Outline.safe_embed (safe_postOrder libs hroute hclean h)
    | updateStatus orderId body => exact safe_patchStatus libs hroute h
    | getOrder orderId => exact Outline.safe_embed (safe_getOrder libs hroute hclean h)

/-- A server thread takes a request, handles it and responds. -/
theorem safe_serve (libs : Libraries E) (h : Idle i s) :
    (outline E table₀).safe (serverMachine E) (.server i) (serve E.lib)
      (fun _ => Idle i) (fun _ _ => False) s := by
  refine Outline.safe_ask (fun _ _ hr h => At.stable h (hr.frame i rfl)) call_accept.under h ?_
  rintro x t ⟨ht, hclean⟩
  change (outline E table₀).safe _ _ ((handle E.lib x.request).bind _) _ _ _
  refine Outline.safe_seq (safe_handle libs hclean ht) ?_
  intro a t ht
  exact Outline.safe_ask answerable_stable call_respond.under ht fun _ _ h => h

end CdcPipeline.Proofs.ApiRoutes
