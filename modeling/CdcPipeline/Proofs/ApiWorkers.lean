import CdcPipeline.Proofs.ApiRoutes

namespace CdcPipeline.Proofs.ApiWorkers

open Library Text History Model ApiProcess LoadGenerator ServedOrders GeneratedOrders ApiOutline
  ApiSteps ApiCalls

variable {ι κ : Type} [DecidableEq ι] [DecidableEq κ] {E : Setting κ} {table₀ : Table}
  {s s' : ApiProcess ι κ} {k : κ}

/-- The machine as a worker's own calls have it. -/
abbrev workerMachine (E : Setting κ) :
    Machine (Thread ι κ) WorkerOp WorkerAns Exn Point (ApiProcess ι κ) :=
  (machine E).under .worker fun _ a => a

section Created

omit [DecidableEq κ]

/-- An order that was inserted is there from then on. -/
theorem inserted_there (hi : Inv E table₀ s) {t : ι × Nat} {row : OrderRow}
    (he : .effect t (.insert row) (.inserted true) ∈ s.history) :
    (s.table row.id).isSome = true := by
  have hlasts := hi.linear.legal.lasts (P := fun table => (table row.id).isSome = true)
    (fun x _ _ h => OrderStore.step_found x.1 h) (mem_effects he)
    (fun table h => OrderStore.insert_found row table h)
  rw [hi.linear.state] at hlasts
  exact hlasts

/-- The id in the body of a 201 is that of an order. -/
theorem created_known (libs : Libraries E) (hi : Inv E table₀ s) {n : Nat} {r : Request}
    {draws : Draws} {amount : FloatText} {product qty : Nat}
    (hr : postRequest (generateUuid draws) amount product qty = .ok r)
    (hsent : s.sent[n]? = some (.worker k, r)) {a : Response} (ha : (n, a) ∈ s.outbox)
    (hstatus : a.status = 201) {id : Bytes} (hid : newId E.lib a.body = some id) : Known id s := by
  obtain ⟨t, x, rfl, hcalled, hanswered⟩ := hi.outbox n a ha
  obtain ⟨y, hy, hlife⟩ := (hi.linear.lives t).answer hanswered
  obtain rfl := (hi.linear.lives t).request hcalled hy
  have hroute : x.request.route = some (.createOrder r.body) := by
    obtain ⟨sender, hs⟩ := hi.arrived x (List.mem_append_right _ (mem_requests hcalled))
    obtain ⟨-, rfl⟩ := Prod.mk.inj (Option.some.inj (hsent.symm.trans hs))
    exact (post_route hr).1
  rcases hlife with hf | ⟨o, res, heff, hm, hd⟩
  · rcases (failed_create hroute).mp hf with ⟨rfl, -⟩ | ⟨rfl, -⟩ <;> cases hstatus
  · obtain ⟨row, rfl, ⟨u, d, text, draws', now, -, hrow, -⟩, rfl⟩ := (means_create hroute).mp hm
    rcases hd with ⟨body, hbody, rfl⟩ | rfl
    · rw [newId, libs.reads _ _ (.created row.id) hbody] at hid
      obtain rfl : row.id = id := Option.some.inj hid
      exact ⟨⟨draws', hrow⟩, inserted_there hi heff⟩
    · cases hstatus

end Created

section Kept

omit [DecidableEq ι] [DecidableEq κ]

theorem kept_remember {createdIds : List Bytes} {id : Bytes} (h : Kept createdIds s)
    (hid : Known id s) : Kept (remember createdIds id) s := by
  have hlength := h.1
  by_cases hfull : 512 ≤ createdIds.length
  · rw [remember, if_pos hfull]
    refine ⟨by rw [List.length_append, List.length_drop, List.length_singleton]; omega, ?_⟩
    intro id' hid'
    rcases List.mem_append.mp hid' with hid' | hid'
    · exact h.2 id' (List.mem_of_mem_drop hid')
    · exact List.mem_singleton.mp hid' ▸ hid
  · rw [remember, if_neg hfull]
    refine ⟨by rw [List.length_append, List.length_singleton]; omega, ?_⟩
    intro id' hid'
    rcases List.mem_append.mp hid' with hid' | hid'
    · exact h.2 id' hid'
    · exact List.mem_singleton.mp hid' ▸ hid

theorem kept_created (lib : Conversions) {createdIds : List Bytes} (h : Kept createdIds s)
    {res : Option Response}
    (hres : ∀ a id, res = some a → a.status = 201 → newId lib a.body = some id → Known id s) :
    Kept (created lib createdIds res) s := by
  cases res with
  | none => exact h
  | some a =>
    by_cases hstatus : a.status = 201
    · rw [created, if_pos hstatus]
      cases hid : newId lib a.body with
      | none => exact h
      | some id => exact kept_remember h (hres a id rfl hstatus hid)
    · rw [created, if_neg hstatus]
      exact h

end Kept

section Calls

/-- Every call but `send` leaves the shared state as it is. -/
def Still : WorkerOp → Prop
  | .send _ => False
  | _ => True

theorem call_still {o : WorkerOp} (h : Still o) {P : ApiProcess ι κ → Prop} :
    (outline E table₀).Call (workerMachine E) (.worker k) o P (fun _ => P) := by
  apply Outline.Call.under
  intro s a s' hi hP hc
  have hsame : s' = s := by
    cases o with
    | send r => exact absurd h id
    | loadRunning => exact hc.1
    | receive n => exact hc.1
    | amount => exact hc.1
    | _ => exact hc
  subst hsame
  exact ⟨hi, fun th _ => rely_refl th s', hP⟩

theorem call_amount {P : ApiProcess ι κ → Prop} :
    (outline E table₀).Call (workerMachine E) (.worker k) .amount P
      (fun x s => E.doubles x ∧ P s) := by
  apply Outline.Call.under
  rintro s a s' hi hP ⟨rfl, hx⟩
  exact ⟨hi, fun th _ => rely_refl th s', hx, hP⟩

theorem call_receive {n : Nat} {P : ApiProcess ι κ → Prop} :
    (outline E table₀).Call (workerMachine E) (.worker k) (.receive n) P
      (fun res s => Inv E table₀ s ∧ (∀ a, res = some a → (n, a) ∈ s.outbox) ∧ P s) := by
  apply Outline.Call.under
  rintro s a s' hi hP ⟨rfl, ha⟩
  exact ⟨hi, fun th _ => rely_refl th s', hi, ha, hP⟩

theorem call_send (libs : Libraries E) {r : Request} {P : ApiProcess ι κ → Prop}
    (hr : ∀ s, P s → FromWorker E s r) (grow : ∀ s s', Grows s s' → P s → P s') :
    (outline E table₀).Call (workerMachine E) (.worker k) (.send r) P
      (fun n s => s.sent[n]? = some (.worker k, r) ∧ P s) := by
  apply Outline.Call.under
  rintro s n s' hi hP ⟨rfl, rfl⟩
  have hfrom := hr s hP
  have hg : Grows s (s.send (.worker k) r) := ⟨fun _ h => h, [(.worker k, r)], rfl⟩
  refine ⟨inv_send hi _ (worker_clean libs hfrom) fun _ _ => hfrom, ?_, ?_, grow _ _ hg hP⟩
  · intro th hth
    exact ⟨hg, fun i _ => ⟨rfl, fun _ => rfl, rfl, fun _ => rfl⟩⟩
  · simp [ApiProcess.send]

end Calls

section Worker

omit [DecidableEq κ] in
theorem stable_of_grow {P : ApiProcess ι κ → Prop} (grow : ∀ s s', Grows s s' → P s → P s') :
    (outline E table₀).Stable (.worker k) P :=
  fun s s' hr h => grow s s' hr.grows h

omit [DecidableEq κ] in
theorem kept_stable {createdIds : List Bytes} :
    (outline E table₀).Stable (.worker k) (Kept (ι := ι) (κ := κ) createdIds) :=
  stable_of_grow fun _ _ hg h => h.grow hg

/-- A request and its response, as far as the outbox tells. -/
theorem safe_exchange (libs : Libraries E) {r : Request} {P : ApiProcess ι κ → Prop}
    {R : Option Response → ApiProcess ι κ → Prop} (hr : ∀ s, P s → FromWorker E s r)
    (grow : ∀ s s', Grows s s' → P s → P s') (growR : ∀ res s s', Grows s s' → R res s → R res s')
    (hR : ∀ n res s, Inv E table₀ s → s.sent[n]? = some (.worker k, r) →
      (∀ a, res = some a → (n, a) ∈ s.outbox) → P s → R res s) (h : P s) :
    (outline E table₀).safe (workerMachine E) (.worker k) (exchange r) (fun x => R x.1)
      (fun _ _ => False) s := by
  refine Outline.safe_ask (stable_of_grow grow) (call_still (o := .steadyClock) trivial) h ?_
  intro _ s h
  refine Outline.safe_ask (stable_of_grow grow) (call_send libs hr grow) h ?_
  intro n s h
  have growSent : ∀ s s' : ApiProcess ι κ, Grows s s' →
      s.sent[n]? = some (.worker k, r) ∧ P s → s'.sent[n]? = some (.worker k, r) ∧ P s' :=
    fun s s' hg h => ⟨hg.get h.1, grow s s' hg h.2⟩
  refine Outline.safe_ask (stable_of_grow growSent) call_receive h ?_
  rintro res s ⟨hi, hout, hsent, h⟩
  exact Outline.safe_ask (stable_of_grow (growR res)) (call_still (o := .steadyClock) trivial)
    (hR n res s hi hsent hout h) fun _ _ h => h

theorem safe_patchOrder (libs : Libraries E) (threadId : Int) {createdIds : List Bytes}
    (hne : createdIds ≠ []) (h : Kept createdIds s) :
    (outline E table₀).safe (workerMachine E) (.worker k) (patchOrder threadId createdIds)
      (fun _ => Kept createdIds) (fun _ => Kept createdIds) s := by
  refine Outline.safe_ask kept_stable (call_still (o := .gen) trivial) h ?_
  intro index s h
  have hmem : createdIds.getD (index % createdIds.length) [] ∈ createdIds := by
    have hlt : index % createdIds.length < createdIds.length :=
      Nat.mod_lt _ (List.length_pos_of_ne_nil hne)
    rw [List.getD_eq_getElem?_getD, List.getElem?_eq_getElem hlt, Option.getD_some]
    exact List.getElem_mem hlt
  refine Outline.safe_ask kept_stable (call_still (o := .statusPick) trivial) h ?_
  intro pick s h
  generalize createdIds.getD (index % createdIds.length) [] = orderId at hmem ⊢
  change (outline E table₀).safe _ _
    ((Prog.ofExcept ((patchRequest orderId (statusCycle.getD pick [])).mapError Exn.json)).bind _)
    _ _ _
  cases hr : patchRequest orderId (statusCycle.getD pick []) with
  | error e => exact h
  | ok r =>
    change (outline E table₀).safe _ _ ((exchange r).bind _) _ _ _
    refine Outline.safe_seq (Q := fun _ => Kept createdIds) (Outline.safe_mono (fun _ _ h => h)
      (fun _ _ h => absurd h id) (safe_exchange libs (P := Kept createdIds)
        (R := fun _ => Kept createdIds) (fun s h => .patch (h.2 orderId hmem) hr)
        (fun _ _ hg h => h.grow hg) (fun _ _ _ hg h => h.grow hg) (fun _ _ _ _ _ _ h => h) h)) ?_
    rintro ⟨res, latencyMs⟩ s h
    dsimp only
    split
    · exact Outline.safe_ask kept_stable (call_still (o := .log _) trivial) h fun _ _ h => h
    · exact Outline.safe_ask kept_stable (call_still (o := .log _) trivial) h fun _ _ h => h

/-- What a response to a `POST` says of the orders, next to the ids kept before. -/
structure Told (E : Setting κ) (createdIds : List Bytes) (res : Option Response)
    (s : ApiProcess ι κ) : Prop where
  known : ∀ a id, res = some a → a.status = 201 → newId E.lib a.body = some id → Known id s
  kept : Kept createdIds s

omit [DecidableEq ι] [DecidableEq κ] in
theorem Told.grow {createdIds : List Bytes} {res : Option Response} (h : Told E createdIds res s)
    (hg : Grows s s') : Told E createdIds res s' :=
  ⟨fun a id ha hs hid => (h.known a id ha hs hid).grow hg, h.kept.grow hg⟩

theorem safe_postOrder (libs : Libraries E) (threadId : Int) {createdIds : List Bytes}
    (h : Kept createdIds s) :
    (outline E table₀).safe (workerMachine E) (.worker k)
      (LoadGenerator.postOrder E.lib threadId createdIds) Kept (fun _ _ => True) s := by
  refine Outline.safe_ask kept_stable (call_still (o := .gen) trivial) h ?_
  intro product s h
  refine Outline.safe_ask kept_stable (call_still (o := .gen) trivial) h ?_
  intro qty s h
  refine Outline.safe_ask kept_stable (call_still (o := .draw) trivial) h ?_
  intro draws s h
  refine Outline.safe_ask kept_stable call_amount h ?_
  rintro amount s ⟨hamount, h⟩
  change (outline E table₀).safe _ _
    ((Prog.ofExcept ((postRequest (generateUuid draws) amount product qty).mapError
      Exn.json)).bind _) _ _ _
  cases hr : postRequest (generateUuid draws) amount product qty with
  | error e => trivial
  | ok r =>
    change (outline E table₀).safe _ _ ((exchange r).bind _) _ _ _
    refine Outline.safe_seq (Q := fun x => Told E createdIds x.1)
      (Outline.safe_mono (fun _ _ h => h) (fun _ _ h => absurd h id)
        (safe_exchange libs (P := Kept createdIds) (R := Told E createdIds)
          (fun _ _ => .post draws hamount hr) (fun _ _ hg h => h.grow hg)
          (fun _ _ _ hg h => h.grow hg) ?_ h)) ?_
    · intro n res s hi hsent hout h
      exact ⟨fun a id ha hs hid => created_known libs hi hr hsent (hout a ha) hs hid, h⟩
    · rintro ⟨res, latencyMs⟩ s h
      have told_stable : (outline E table₀).Stable (.worker k) (Told (ι := ι) E createdIds res) :=
        stable_of_grow fun _ _ hg h => h.grow hg
      dsimp only
      split
      · exact Outline.safe_ask told_stable (call_still (o := .log _) trivial) h
          fun _ _ h => kept_created E.lib h.kept h.known
      · exact Outline.safe_ask told_stable (call_still (o := .log _) trivial) h
          fun _ _ h => kept_created E.lib h.kept h.known

theorem safe_fire (libs : Libraries E) (threadId : Int) {createdIds : List Bytes}
    (h : Kept createdIds s) :
    (outline E table₀).safe (workerMachine E) (.worker k) (fire E.lib threadId createdIds) Kept
      (fun _ _ => True) s := by
  have hchance : (outline E table₀).safe (workerMachine E) (.worker k) (doPatch createdIds)
      (fun b s => (b = true → createdIds ≠ []) ∧ Kept createdIds s) (fun _ _ => True) s := by
    unfold doPatch
    split
    · exact ⟨nofun, h⟩
    · rename_i hne
      exact Outline.safe_ask kept_stable (call_still (o := .patchChance) trivial) h
        fun _ _ h => ⟨fun _ => hne, h⟩
  refine Outline.safe_seq hchance ?_
  rintro b s ⟨hne, h⟩
  cases b with
  | true =>
    refine Outline.safe_seq (Outline.safe_mono (fun _ _ h => h) (fun _ _ _ => trivial)
      (safe_patchOrder libs threadId (hne rfl) h)) ?_
    exact fun _ _ h => h
  | false => exact safe_postOrder libs threadId h

theorem safe_pace {createdIds : List Bytes} (tickStart : Int) (h : Kept createdIds s) :
    (outline E table₀).safe (workerMachine E) (.worker k) (pace E.cfg tickStart)
      (fun _ => Kept createdIds) (fun _ _ => True) s := by
  refine Outline.safe_ask kept_stable (call_still (o := .steadyClock) trivial) h ?_
  intro now s h
  change (outline E table₀).safe _ _ (if now - tickStart < E.cfg.sleepDuration then _ else _) _ _ _
  split
  · exact Outline.safe_ask kept_stable (call_still (o := .sleepFor _) trivial) h fun _ _ h => h
  · exact h

theorem safe_tick (libs : Libraries E) (threadId : Int) {createdIds : List Bytes}
    (h : Kept createdIds s) :
    (outline E table₀).safe (workerMachine E) (.worker k) (tick E.lib threadId E.cfg createdIds)
      (fun res s => ∀ ids, res = some ids → Kept ids s) (fun _ _ => True) s := by
  refine Outline.safe_ask kept_stable (call_still (o := .loadRunning) trivial) h ?_
  intro running s h
  cases running with
  | false => exact fun _ => nofun
  | true =>
    refine Outline.safe_ask kept_stable (call_still (o := .steadyClock) trivial) h ?_
    intro tickStart s h
    change (outline E table₀).safe _ _ ((fire E.lib threadId createdIds).bind _) _ _ _
    refine Outline.safe_seq (safe_fire libs threadId h) ?_
    intro ids s h
    refine Outline.safe_seq (safe_pace tickStart h) ?_
    rintro - s h _ ⟨⟩
    exact h

end Worker

end CdcPipeline.Proofs.ApiWorkers
