import CdcPipeline.Proofs.ServedHistory

namespace CdcPipeline.Proofs.ClientView

open Library Text History Model ApiProcess ApiServer ServedOrders GeneratedOrders ApiOutline
  ApiWorkers ServedHistory

variable {ι κ : Type} [DecidableEq ι] [DecidableEq κ] {E : Setting κ} {table₀ : Table}
  {c : Machine.Config (Thread ι κ) (ProcessOp κ) ProcessAns Exn Point (ApiProcess ι κ)}

section Store

variable {table : Table} {xs ys : List (StoreOp × StoreAns)} {row : OrderRow} {id : Bytes}

/-- The order is there as it was inserted, whatever its status is by now. -/
def Holds (row : OrderRow) (table : Table) : Prop :=
  ∃ status, table row.id = some { row with status := status }

theorem holds_step (o : StoreOp) (h : Holds row table) : Holds row (OrderStore.step o table).2 := by
  obtain ⟨status, hrow⟩ := h
  obtain ⟨status', hnext⟩ := OrderStore.step_keeps o hrow
  exact ⟨status', hnext⟩

theorem holds_insert (h : (OrderStore.step (.insert row) table).1 = .inserted true) :
    Holds row (OrderStore.step (.insert row) table).2 := by
  cases hr : table row.id with
  | none =>
    rw [OrderStore.step_insert hr]
    exact ⟨row.status, Function.update_self ..⟩
  | some old =>
    rw [OrderStore.step_insert_taken hr] at h
    cases h

theorem holds_from (legal : Legal OrderStore.step table xs)
    (hx : (.insert row, .inserted true) ∈ xs) :
    Holds row (replay OrderStore.step table (xs ++ ys)) := by
  rw [replay_append]
  refine replay_keeps (fun y _ t h => holds_step y.1 h) ?_
  exact legal.lasts (fun y _ t h => holds_step y.1 h) hx fun t h => holds_insert h

/-- The order's status is one that these operations have set. -/
def SetBy (id : Bytes) (xs : List (StoreOp × StoreAns)) (table : Table) : Prop :=
  ∃ row r, table id = some row ∧ (.setStatus id row.status, r) ∈ xs

theorem setBy_step {x : StoreOp × StoreAns} (hx : x ∈ xs) (h : SetBy id xs table) :
    SetBy id xs (OrderStore.step x.1 table).2 := by
  obtain ⟨row, r, hrow, hset⟩ := h
  obtain ⟨o, r'⟩ := x
  cases o with
  | find _ => exact ⟨row, r, hrow, hset⟩
  | insert new =>
    cases hr : table new.id with
    | some old =>
      rw [OrderStore.step_insert_taken hr]
      exact ⟨row, r, hrow, hset⟩
    | none =>
      have hid : id ≠ new.id := by
        rintro rfl
        rw [hr] at hrow
        cases hrow
      rw [OrderStore.step_insert hr]
      exact ⟨row, r, (Function.update_of_ne hid ..).trans hrow, hset⟩
  | setStatus id' status =>
    cases hr : table id' with
    | none =>
      rw [OrderStore.step_setStatus_none hr]
      exact ⟨row, r, hrow, hset⟩
    | some old =>
      rw [OrderStore.step_setStatus hr]
      by_cases hid : id = id'
      · subst hid
        exact ⟨_, r', Function.update_self .., hx⟩
      · exact ⟨row, r, (Function.update_of_ne hid ..).trans hrow, hset⟩

theorem setBy_update {status : Bytes} (hx : (.setStatus id status, .updated true) ∈ xs)
    (h : (OrderStore.step (.setStatus id status) table).1 = .updated true) :
    SetBy id xs (OrderStore.step (.setStatus id status) table).2 := by
  cases hr : table id with
  | none =>
    rw [OrderStore.step_setStatus_none hr] at h
    cases h
  | some row =>
    rw [OrderStore.step_setStatus hr]
    exact ⟨_, _, Function.update_self .., hx⟩

theorem setBy_from (legal : Legal OrderStore.step table xs) {status : Bytes}
    (hx : (.setStatus id status, .updated true) ∈ xs) :
    SetBy id xs (replay OrderStore.step table xs) :=
  legal.lasts (fun _ hy _ h => setBy_step hy h) hx fun _ h => setBy_update hx h

/-- What has its effect later finds the order. -/
theorem holds_when {before after : List (OrderMark ι)}
    {rules : Rules Incoming StoreOp StoreAns Response}
    (hlin : Linearized OrderStore.step rules table₀ (before ++ after) table) {t t' : ι × Nat}
    (inserted : .effect t (.insert row) (.inserted true) ∈ before) {o : StoreOp} {r : StoreAns}
    (effect : .effect t' o r ∈ after) :
    ∃ table, Holds row table ∧ (OrderStore.step o table).1 = r := by
  obtain ⟨xs, -, hlegal, hanswer⟩ := hlin.answer_after effect
  exact ⟨_, holds_from ((legal_append _ _ _).mp hlegal).1 (mem_effects inserted), hanswer⟩

end Store

section Acknowledged

variable {h : List (OrderMark ι)} {table : Table} {t : ι × Nat} {x : Incoming} {body : Bytes}

omit [DecidableEq κ] in
/-- A 201 is for a row that was inserted as it was asked for. -/
theorem created_inserted
    (hlin : Linearized OrderStore.step (rules E.lib E.cols) table₀ h table)
    (called : .called t x ∈ h) (route : x.request.route = some (.createOrder body)) {a : Response}
    (answered : .answered t a ∈ h) (created : a.status = 201) :
    ∃ row, Asked E.lib E.cols body row ∧ (createdDoc row.id).dump = .ok a.body ∧
      .effect t (.insert row) (.inserted true) ∈ h := by
  obtain ⟨y, hy, hlife⟩ := (hlin.lives t).answer answered
  obtain rfl := (hlin.lives t).request called hy
  rcases hlife with hf | ⟨o, r, heff, hm, hd⟩
  · rcases (failed_create route).mp hf with ⟨rfl, -⟩ | ⟨rfl, -⟩ <;> cases created
  obtain ⟨row, rfl, hasked, rfl⟩ := (means_create route).mp hm
  rcases hd with ⟨text, htext, rfl⟩ | rfl
  · exact ⟨row, hasked, htext, heff⟩
  · cases created

omit [DecidableEq κ] in
/-- `updated: true` is for a status that was set. -/
theorem updated_set (hlin : Linearized OrderStore.step (rules E.lib E.cols) table₀ h table)
    (called : .called t x ∈ h) {orderId id : Bytes}
    (route : x.request.route = some (.updateStatus orderId body))
    (read : E.cols.uuid (cString orderId) = .ok id) (answered : .answered t statusUpdated ∈ h) :
    ∃ status, .effect t (.setStatus id status) (.updated true) ∈ h := by
  obtain ⟨y, hy, hlife⟩ := (hlin.lives t).answer answered
  obtain rfl := (hlin.lives t).request called hy
  rcases hlife with hf | ⟨o, r, heff, hm, hd⟩
  · rcases (failed_update route).mp hf with ⟨h, -⟩ | ⟨h, -⟩ <;> cases congrArg Response.status h
  obtain ⟨id', status, rfl, -, hread⟩ := (means_update route).mp hm
  obtain rfl : id = id' := Except.ok.inj (read.symm.trans hread)
  cases r with
  | updated found =>
    cases found with
    | true => exact ⟨status, heff⟩
    | false => rcases hd with h | h <;> cases congrArg Response.status h
  | inserted _ => exact False.elim hd
  | row _ => exact False.elim hd

end Acknowledged

section Clients

/-- An order whose 201 has come is never missed by a request that comes later, and Postgres
shows it as it was asked for. -/
theorem created_visible (libs : Libraries E) (h : (machine E).Reach (fresh table₀) c)
    {before after : List (OrderMark ι)} (split : c.shared.history = before ++ after)
    {t : ι × Nat} {x : Incoming} {body : Bytes} {a : Response} (called : .called t x ∈ before)
    (route : x.request.route = some (.createOrder body)) (answered : .answered t a ∈ before)
    (created : a.status = 201) :
    ∃ row, Asked E.lib E.cols body row ∧ (createdDoc row.id).dump = .ok a.body ∧
      ∀ t' x' a', .called t' x' ∈ after → .answered t' a' ∈ after →
        (∀ body', x'.request.route = some (.updateStatus row.id body') → a' ≠ orderNotFound) ∧
        (x'.request.route = some (.getOrder row.id) → FromRedis a' ∨ a' = internalServerError ∨
          ∃ status text, rowBody E.lib { row with status := status } = .ok text ∧
            a' = ⟨200, text⟩) := by
  have hlin := (linearizable libs h).1
  rw [split] at hlin
  have hmem : ∀ {m : OrderMark ι}, m ∈ before → m ∈ before ++ after := List.mem_append_left _
  have hmem' : ∀ {m : OrderMark ι}, m ∈ after → m ∈ before ++ after := List.mem_append_right _
  obtain ⟨row, hasked, htext, heff⟩ :=
    created_inserted hlin (hmem called) route (hmem answered) created
  refine ⟨row, hasked, htext, ?_⟩
  have hinserted := (hlin.lives t).effect_before answered heff
  have hid : E.cols.uuid row.id = .ok row.id := by
    obtain ⟨_, _, _, draws, _, -, hrow, -⟩ := hasked
    rw [hrow, libs.standard]
  have hcut : cString row.id = row.id := by
    obtain ⟨_, _, _, draws, _, -, hrow, -⟩ := hasked
    rw [hrow, uuid_cString]
  intro t' x' a' called' answered'
  obtain ⟨y', hy', hlife'⟩ := (hlin.lives t').answer (hmem' answered')
  obtain rfl := (hlin.lives t').request (hmem' called') hy'
  refine ⟨?_, ?_⟩
  · rintro body' route' rfl
    rcases hlife' with hf | ⟨o, r, heff', hm', hd'⟩
    · rcases (failed_update route').mp hf with ⟨h, -⟩ | ⟨h, -⟩ <;> cases congrArg Response.status h
    · obtain ⟨id, status, rfl, -, hread⟩ := (means_update route').mp hm'
      obtain rfl : row.id = id := Except.ok.inj (by rw [← hid, ← hread, hcut])
      obtain ⟨table, ⟨status', hthere⟩, rfl⟩ :=
        holds_when hlin hinserted ((hlin.lives t').effect_after called' heff')
      rw [OrderStore.setStatus_found, hthere] at hd'
      rcases hd' with h | h <;> cases congrArg Response.status h
  · intro route'
    rcases hlife' with hf | ⟨o, r, heff', hm', hd'⟩
    · exact ((failed_get route').mp hf).imp_right Or.inl
    · obtain ⟨id, rfl, hread⟩ := (means_get route').mp hm'
      obtain rfl : row.id = id := Except.ok.inj (hid.symm.trans hread)
      obtain ⟨table, ⟨status, hthere⟩, rfl⟩ :=
        holds_when hlin hinserted ((hlin.lives t').effect_after called' heff')
      rw [OrderStore.step, hthere] at hd'
      rcases hd' with ⟨text, htext, rfl⟩ | ⟨rfl, -⟩
      · exact Or.inr (Or.inr ⟨status, text, htext, rfl⟩)
      · exact Or.inr (Or.inl rfl)

open CalmServer in
/-- An order is posted, and behind its 201 it is shipped and looked up. -/
theorem created_visible_sample : ∃ (c : Machine.Config (Thread Unit Unit) (ProcessOp Unit)
    ProcessAns Exn Point (ApiProcess Unit Unit)) (before after : List (OrderMark Unit))
    (t₂ t₃ : Unit × Nat) (x₂ x₃ : Incoming) (body created shown : Bytes) (row : OrderRow),
    c.shared.history = before ++ after ∧
    .called t₂ x₂ ∈ after ∧ .answered t₂ statusUpdated ∈ after ∧
    .called t₃ x₃ ∈ after ∧ .answered t₃ ⟨200, shown⟩ ∈ after ∧
    Asked sampleSetting.lib sampleSetting.cols body row ∧ (createdDoc row.id).dump = .ok created ∧
    ∀ t' x' a', .called t' x' ∈ after → .answered t' a' ∈ after →
      (∀ body', x'.request.route = some (.updateStatus row.id body') → a' ≠ orderNotFound) ∧
      (x'.request.route = some (.getOrder row.id) → FromRedis a' ∨ a' = internalServerError ∨
        ∃ status text, rowBody sampleSetting.lib { row with status := status } = .ok text ∧
          a' = ⟨200, text⟩) := by
  obtain ⟨order, status, created, shown, n₁, m₁, n₂, m₂, n₃, m₃, table, c, hc⟩ := sample_run
  rw [List.append_assoc] at hc
  obtain ⟨row, hasked, hcreated, hlater⟩ := created_visible (a := ⟨201, created⟩) sample_libraries
    hc.reach hc.history
    List.mem_cons_self (sample_post_route order) (by simp) rfl
  exact ⟨c, _, _, ((), n₂), ((), n₃), ⟨m₂, samplePatch status⟩, ⟨m₃, sampleGet⟩, order, created,
    shown, row, hc.history, by simp, by simp, by simp, by simp, hasked, hcreated, hlater⟩

/-- Postgres never shows a status that is older than an acknowledged one: the update it is from
had not been answered when the acknowledged request came in. -/
theorem status_not_stale (libs : Libraries E) (h : (machine E).Reach (fresh table₀) c)
    {before during after : List (OrderMark ι)}
    (split : c.shared.history = before ++ during ++ after) {t t' : ι × Nat} {x x' : Incoming}
    {orderId orderId' id body : Bytes} {a' : Response} (called : .called t x ∈ during)
    (route : x.request.route = some (.updateStatus orderId body))
    (read : E.cols.uuid (cString orderId) = .ok id) (answered : .answered t statusUpdated ∈ during)
    (called' : .called t' x' ∈ after) (route' : x'.request.route = some (.getOrder orderId'))
    (read' : E.cols.uuid orderId' = .ok id) (answered' : .answered t' a' ∈ after) :
    FromRedis a' ∨ a' = internalServerError ∨
      ∃ row text r u y, rowBody E.lib row = .ok text ∧ a' = ⟨200, text⟩ ∧
        .called u y ∈ c.shared.history ∧ means E.lib E.cols y (.setStatus id row.status) r ∧
        ∀ b, .answered u b ∉ before := by
  have hlin := (linearizable libs h).1
  rw [split] at hlin
  have hsplit : before ++ during ++ after = before ++ (during ++ after) := List.append_assoc ..
  have hmem : ∀ {m : OrderMark ι}, m ∈ during → m ∈ before ++ during ++ after :=
    fun hm => List.mem_append_left _ (List.mem_append_right _ hm)
  have hmem' : ∀ {m : OrderMark ι}, m ∈ after → m ∈ before ++ during ++ after :=
    List.mem_append_right _
  -- the acknowledged update took effect in the middle part
  have hset : ∃ status, .effect t (.setStatus id status) (.updated true) ∈ during := by
    obtain ⟨status, heff⟩ := updated_set hlin (hmem called) route read (hmem answered)
    have hbehind : .effect t (.setStatus id status) (.updated true) ∈ during ++ after :=
      (hsplit ▸ hlin.lives t).effect_after (List.mem_append_left _ called) (hsplit ▸ heff)
    refine ⟨status, (List.mem_append.mp hbehind).resolve_right fun hlate => ?_⟩
    exact (hlin.lives t).unanswered hlate _ (List.mem_append_right _ answered)
  obtain ⟨status, hset⟩ := hset
  obtain ⟨y', hy', hlife'⟩ := (hlin.lives t').answer (hmem' answered')
  obtain rfl := (hlin.lives t').request (hmem' called') hy'
  rcases hlife' with hf | ⟨o, r, heff', hm', hd'⟩
  · exact ((failed_get route').mp hf).imp_right Or.inl
  obtain ⟨id', rfl, hread⟩ := (means_get route').mp hm'
  obtain rfl : id = id' := Except.ok.inj (read'.symm.trans hread)
  have hlate := (hlin.lives t').effect_after called' heff'
  obtain ⟨xs, hxs, hlegal, rfl⟩ := hlin.answer_after hlate
  rw [effects_append, List.append_assoc] at hlegal
  have hsetBy : SetBy id (effects during ++ xs)
      (replay OrderStore.step table₀ (effects (before ++ during) ++ xs)) := by
    rw [effects_append, List.append_assoc, replay_append]
    exact setBy_from ((legal_append _ _ _).mp hlegal).2
      (List.mem_append_left _ (mem_effects hset))
  obtain ⟨row, r, hthere, hby⟩ := hsetBy
  rw [OrderStore.step, hthere] at hd'
  rcases hd' with ⟨text, htext, rfl⟩ | ⟨rfl, -⟩
  swap
  · exact Or.inr (Or.inl rfl)
  obtain ⟨u, hu⟩ : ∃ u, .effect u (.setStatus id row.status) r ∈ during ++ after := by
    apply effect_of
    rw [effects_append]
    exact (List.mem_append.mp hby).elim (List.mem_append_left _)
      fun h => List.mem_append_right _ (hxs _ h)
  obtain ⟨y, hy, hm⟩ := (hlin.lives u).effect (hsplit ▸ List.mem_append_right _ hu)
  refine Or.inr (Or.inr ⟨row, text, r, u, y, htext, rfl, split ▸ hy, hm, ?_⟩)
  exact (hsplit ▸ hlin.lives u).unanswered hu

open CalmServer in
/-- The same, cut behind the 201 and behind the answer to the update. -/
theorem status_not_stale_sample : ∃ (c : Machine.Config (Thread Unit Unit) (ProcessOp Unit)
    ProcessAns Exn Point (ApiProcess Unit Unit)) (before during after : List (OrderMark Unit))
    (t t' : Unit × Nat) (shown : Response),
    c.shared.history = before ++ during ++ after ∧ .answered t statusUpdated ∈ during ∧
    .answered t' shown ∈ after ∧
    (FromRedis shown ∨ shown = internalServerError ∨
      ∃ row text r u y, rowBody sampleSetting.lib row = .ok text ∧ shown = ⟨200, text⟩ ∧
        .called u y ∈ c.shared.history ∧
        means sampleSetting.lib sampleSetting.cols y (.setStatus sampleId row.status) r ∧
        ∀ b, .answered u b ∉ before) := by
  obtain ⟨order, status, created, shown, n₁, m₁, n₂, m₂, n₃, m₃, table, c, hc⟩ := sample_run
  exact ⟨c, _, _, _, ((), n₂), ((), n₃), ⟨200, shown⟩, hc.history, by simp, by simp,
    status_not_stale sample_libraries hc.reach hc.history List.mem_cons_self
      (sample_patch_route status) sample_cut (by simp) List.mem_cons_self sample_get_route
      sample_uuid (by simp)⟩

/-- The load generator only meets orders that are there: it is answered as it expects, or with an
internal error. -/
theorem load_served (libs : Libraries E) (h : (machine E).Reach (fresh table₀) c) :
    (∀ n k r a, c.shared.sent[n]? = some (.worker k, r) → (n, a) ∈ c.shared.outbox →
      a = internalServerError ∨ a = statusUpdated ∨
        ∃ id, (c.shared.table id).isSome = true ∧ (createdDoc id).dump = .ok a.body ∧
          a.status = 201) ∧
      ∀ k ids, c.threads (.worker k) = .ret (.looping ids) →
        ids.length ≤ 512 ∧ ∀ id ∈ ids, (c.shared.table id).isSome = true := by
  obtain ⟨hi, hthreads⟩ := holds libs h
  refine ⟨?_, ?_⟩
  · intro n k r a hsent ha
    obtain ⟨t, x, rfl, hcalled, hanswered⟩ := hi.outbox n a ha
    obtain ⟨y, hy, hlife⟩ := (hi.linear.lives t).answer hanswered
    obtain rfl := (hi.linear.lives t).request hcalled hy
    obtain rfl : r = x.request := by
      obtain ⟨sender, hs⟩ := hi.arrived x (List.mem_append_right _ (mem_requests hcalled))
      exact (Prod.mk.inj (Option.some.inj (hsent.symm.trans hs))).2
    cases hi.workers k x.request (List.mem_of_getElem? hsent) with
    | post draws isDouble is =>
      obtain ⟨route, hdump⟩ := post_route is
      obtain ⟨text, htext, -⟩ := payload_reads hdump (libs.reads _ _ (.payload isDouble ..) hdump)
      rcases hlife with hf | ⟨o, res, heff, hm, hd⟩
      · rcases (failed_create route).mp hf with ⟨-, e, he⟩ | ⟨rfl, -⟩
        · rw [htext] at he
          cases he
        · exact Or.inl rfl
      · obtain ⟨row, rfl, -, rfl⟩ := (means_create route).mp hm
        rcases hd with ⟨body, hbody, rfl⟩ | rfl
        · exact Or.inr (Or.inr ⟨row.id, inserted_there hi heff, hbody, rfl⟩)
        · exact Or.inl rfl
    | patch known is =>
      obtain ⟨⟨draws, rfl⟩, -⟩ := known
      obtain ⟨route, hdump⟩ := patch_route is
      have htext := status_reads (libs.reads _ _ (.status _) hdump)
      rcases hlife with hf | ⟨o, res, heff, hm, hd⟩
      · rcases (failed_update route).mp hf with ⟨-, e, he⟩ | ⟨rfl, -⟩
        · rw [htext] at he
          cases he
        · exact Or.inl rfl
      · obtain ⟨id, status, rfl, -, -⟩ := (means_update route).mp hm
        cases res with
        | updated found =>
          obtain rfl := hi.found t x _ found hcalled ⟨k, hsent⟩ heff
          rcases hd with rfl | rfl
          · exact Or.inr (Or.inl rfl)
          · exact Or.inl rfl
        | inserted _ => exact False.elim hd
        | row _ => exact False.elim hd
  · intro k ids hc
    have hk := hthreads (.worker k)
    rw [hc] at hk
    exact ⟨hk.1, fun id hid => (hk.2 id hid).2⟩

open CalmServer in
/-- A worker posts an order, keeps its id and ships it. -/
theorem load_served_sample : ∃ (c : Machine.Config (Thread Unit Unit) (ProcessOp Unit) ProcessAns
    Exn Point (ApiProcess Unit Unit)) (r₁ r₂ : Request) (a₁ : Response) (ids : List Bytes),
    c.shared.sent = [(.worker (), r₁), (.worker (), r₂)] ∧
    c.shared.outbox = [(1, statusUpdated), (0, a₁)] ∧ a₁.status = 201 ∧
    c.threads (.worker ()) = .ret (.looping ids) ∧ ids.length = 1 ∧
    (∀ n k r a, c.shared.sent[n]? = some (.worker k, r) → (n, a) ∈ c.shared.outbox →
      a = internalServerError ∨ a = statusUpdated ∨
        ∃ id, (c.shared.table id).isSome = true ∧ (createdDoc id).dump = .ok a.body ∧
          a.status = 201) ∧
    ids.length ≤ 512 ∧ ∀ id ∈ ids, (c.shared.table id).isSome = true := by
  obtain ⟨c, r₁, r₂, created, hc, hsent, houtbox, hkept⟩ := sample_load
  obtain ⟨hresponses, hids⟩ := load_served sample_libraries hc
  exact ⟨c, r₁, r₂, ⟨201, created⟩, [sampleId], hsent, houtbox, rfl, hkept, rfl, hresponses,
    hids () _ hkept⟩

end Clients

end CdcPipeline.Proofs.ClientView
