import CdcPipeline.Model.Execution
import CdcPipeline.Proofs.RedisCache

namespace CdcPipeline.Proofs.ValueGuard

open Library Text Model RedisUpdater RedisCache

/-- No order's id is another's with the guard's suffix. -/
def Separate (ids : Bytes → Prop) : Prop := ∀ a b, ids a → ids b → a ≠ b ++ bytes ":lsn"

/-- What an accepted execution leaves. -/
def written (x : Execution) (r : Redis) : Redis :=
  (match x.value with
    | some v => r.setEx (redisKey x.id) v 86400
    | none => r.del (redisKey x.id)).setEx (lsnKey x.id) (intText x.lsn) 86400

def refuses (r : Redis) (x : Execution) : Bool :=
  Redis.stale (r.get (lsnKey x.id)) (intText x.lsn)

theorem exec_command (x : Execution) (r : Redis) :
    Redis.exec x.command r =
      if refuses r x = true then (.integer 0, r) else (.integer 1, written x r) := by
  unfold Execution.command written refuses
  cases x.value with
  | some v => exact exec_upsert x.id v x.lsn r
  | none => exact exec_del x.id x.lsn r

theorem execute_refused {s : Executed} {x : Execution} (h : refuses s.redis x = true) :
    s.execute x = s := by
  simp [Executed.execute, exec_command, h]

theorem execute_accepted {s : Executed} {x : Execution} (h : refuses s.redis x = false) :
    s.execute x = ⟨written x s.redis, x :: s.accepted⟩ := by
  simp [Executed.execute, exec_command, h]

/-- An entry as the server shows it. -/
def shown (r : Redis) (u : Nat) (v : Bytes) : Option Entry :=
  if r.now ≤ u then some ⟨v, u⟩ else none

/-- The keys are those of the last execution that was accepted, and expire together. -/
def Guarded (r : Redis) (id : Bytes) : Option Execution → Prop
  | none => r.live (lsnKey id) = none ∧ r.live (redisKey id) = none
  | some x => ∃ u, r.live (lsnKey id) = shown r u (intText x.lsn) ∧
      r.live (redisKey id) = x.value.bind (shown r u)

theorem redisKey_ne_own {id : Bytes} : redisKey id ≠ lsnKey id := by
  refine redisKey_ne_lsnKey fun he => ?_
  have hl := congrArg List.length he
  rw [List.length_append] at hl
  have h4 : (bytes ":lsn").length = 4 := rfl
  omega

theorem redisKey_ne_other {ids : Bytes → Prop} (hs : Separate ids) {a b : Bytes} (ha : ids a)
    (hb : ids b) : redisKey a ≠ lsnKey b :=
  redisKey_ne_lsnKey (hs a b ha hb)

theorem shown_tick (r : Redis) (elapsed u : Nat) (v : Bytes) :
    (shown r u v).filter (fun e => r.now + elapsed ≤ e.expireAt) = shown (r.tick elapsed) u v := by
  unfold shown
  by_cases h : r.now ≤ u
  · by_cases h' : r.now + elapsed ≤ u
    · simp [h, h', Redis.tick]
    · simp [h, h', Redis.tick]
      omega
  · have h' : ¬ r.now + elapsed ≤ u := by omega
    simp [h, h', Redis.tick]

theorem Guarded.tick {r : Redis} {id : Bytes} {last : Option Execution} (h : Guarded r id last)
    (elapsed : Nat) : Guarded (r.tick elapsed) id last := by
  cases last with
  | none =>
    obtain ⟨hl, hv⟩ := h
    exact ⟨by rw [Redis.live_tick, hl]; rfl, by rw [Redis.live_tick, hv]; rfl⟩
  | some x =>
    obtain ⟨u, hl, hv⟩ := h
    refine ⟨u, by rw [Redis.live_tick, hl, shown_tick], ?_⟩
    rw [Redis.live_tick, hv]
    cases x.value with
    | none => rfl
    | some v => exact shown_tick r elapsed u v

theorem Guarded.congr {r r' : Redis} {id : Bytes} {last : Option Execution}
    (h : Guarded r id last) (hnow : r'.now = r.now) (hl : r'.live (lsnKey id) = r.live (lsnKey id))
    (hv : r'.live (redisKey id) = r.live (redisKey id)) : Guarded r' id last := by
  cases last with
  | none => exact ⟨hl.trans h.1, hv.trans h.2⟩
  | some x =>
    obtain ⟨u, hlsn, hval⟩ := h
    have hshown : shown r' u = shown r u := by
      funext v
      rw [shown, hnow]
      rfl
    exact ⟨u, by rw [hl, hlsn, hshown], by rw [hv, hval, hshown]⟩

theorem written_now (x : Execution) (r : Redis) : (written x r).now = r.now := by
  unfold written
  cases x.value <;> rfl

/-- An accepted execution sets or deletes the value and sets the guard, at one instant. -/
theorem written_guarded (x : Execution) (r : Redis) : Guarded (written x r) x.id (some x) := by
  have hfresh : ∀ v, shown (written x r) (r.now + 86400 * 1000) v =
      some ⟨v, r.now + 86400 * 1000⟩ := by
    intro v
    rw [shown, written_now, if_pos (Nat.le_add_right _ _)]
  refine ⟨r.now + 86400 * 1000, ?_, ?_⟩
  · rw [hfresh]
    unfold written
    cases x.value with
    | some v => exact Redis.live_setEx_self _ _ _ _
    | none => exact Redis.live_setEx_self _ _ _ _
  · unfold written at hfresh ⊢
    rw [Redis.live_setEx_ne _ _ _ redisKey_ne_own]
    cases hv : x.value with
    | some v =>
      simp only [hv] at hfresh
      rw [Option.bind_some, hfresh, Redis.live_setEx_self]
    | none => exact Redis.live_del_self r _

theorem written_live_ne {ids : Bytes → Prop} (hs : Separate ids) {x : Execution} {id : Bytes}
    (hx : ids x.id) (hid : ids id) (hne : id ≠ x.id) (r : Redis) :
    (written x r).live (lsnKey id) = r.live (lsnKey id) ∧
      (written x r).live (redisKey id) = r.live (redisKey id) := by
  have hkl : lsnKey id ≠ redisKey x.id := Ne.symm (redisKey_ne_other hs hx hid)
  have hkk : redisKey id ≠ redisKey x.id := fun he => hne (redisKey_inj he)
  unfold written
  rw [Redis.live_setEx_ne _ _ _ (fun he => hne (lsnKey_inj he)),
    Redis.live_setEx_ne _ _ _ (redisKey_ne_other hs hid hx)]
  cases x.value with
  | some v => exact ⟨Redis.live_setEx_ne r v _ hkl, Redis.live_setEx_ne r v _ hkk⟩
  | none => exact ⟨Redis.live_del_ne r hkl, Redis.live_del_ne r hkk⟩

theorem last_cons (r : Redis) (x : Execution) (xs : List Execution) (id : Bytes) :
    (Executed.mk r (x :: xs)).last id =
      if x.id = id then some x else (Executed.mk r xs).last id := by
  by_cases h : x.id = id <;> simp [Executed.last, h]

theorem step_guarded {ids : Bytes → Prop} (hs : Separate ids) {s s' : Executed} {id : Bytes}
    (hid : ids id) (step : Executed.Step ids s s') (h : Guarded s.redis id (s.last id)) :
    Guarded s'.redis id (s'.last id) := by
  cases step with
  | tick elapsed => exact h.tick elapsed
  | expire gone => exact h.congr rfl (Redis.live_del_gone gone _) (Redis.live_del_gone gone _)
  | @execute x known =>
    cases hr : refuses s.redis x with
    | true =>
      rw [execute_refused hr]
      exact h
    | false =>
      rw [execute_accepted hr, last_cons]
      by_cases hx : x.id = id
      · rw [if_pos hx, ← hx]
        exact written_guarded x s.redis
      · rw [if_neg hx]
        obtain ⟨hl, hv⟩ := written_live_ne hs known hid (Ne.symm hx) s.redis
        exact h.congr (written_now x s.redis) hl hv

theorem reach_guarded {ids : Bytes → Prop} (hs : Separate ids) {s : Executed} {id : Bytes}
    (hid : ids id) (h : Executed.Reach ids s) : Guarded s.redis id (s.last id) := by
  induction h with
  | empty now => exact ⟨rfl, rfl⟩
  | step _ step ih => exact step_guarded hs hid step ih

theorem shown_some {r : Redis} {u : Nat} {v : Bytes} {e : Entry} (h : shown r u v = some e) :
    e = ⟨v, u⟩ := by
  unfold shown at h
  split at h
  · exact (Option.some.inj h).symm
  · contradiction

/-- A live value has its guard beside it, with the same expiry and the version it was
written with; a guard alone is what a delete leaves. -/
theorem value_guarded {ids : Bytes → Prop} (separate : Separate ids) {s : Executed}
    (h : Executed.Reach ids s) {id : Bytes} (hid : ids id) :
    (∀ e, s.redis.live (redisKey id) = some e →
      ∃ x, s.last id = some x ∧ x.value = some e.value ∧
        s.redis.live (redisKey id ++ bytes ":lsn") = some ⟨intText x.lsn, e.expireAt⟩) ∧
    (s.redis.live (redisKey id) = none →
      (s.redis.live (redisKey id ++ bytes ":lsn")).isSome = true →
        ∃ x, s.last id = some x ∧ x.value = none) := by
  have hg := reach_guarded separate hid h
  cases hlast : s.last id with
  | none =>
    rw [hlast] at hg
    obtain ⟨hl, hv⟩ := hg
    refine ⟨fun e he => ?_, fun _ hsome => ?_⟩
    · rw [hv] at he
      contradiction
    · rw [show redisKey id ++ bytes ":lsn" = lsnKey id from rfl, hl] at hsome
      contradiction
  | some x =>
    rw [hlast] at hg
    obtain ⟨u, hl, hv⟩ := hg
    refine ⟨fun e he => ⟨x, rfl, ?_⟩, fun hnone hsome => ⟨x, rfl, ?_⟩⟩
    · rw [hv] at he
      obtain ⟨v, hval, hshown⟩ := Option.bind_eq_some_iff.mp he
      have hnow : s.redis.now ≤ u := by
        by_contra hlate
        simp [shown, hlate] at hshown
      obtain rfl := shown_some hshown
      refine ⟨hval, hl.trans ?_⟩
      rw [shown, if_pos hnow]
    · -- both expire together, so a value written with this guard would be there
      have hnow : s.redis.now ≤ u := by
        by_contra hlate
        rw [show redisKey id ++ bytes ":lsn" = lsnKey id from rfl, hl, shown, if_neg hlate] at hsome
        contradiction
      cases hval : x.value with
      | none => rfl
      | some v =>
        rw [hv, hval, Option.bind_some, shown, if_pos hnow] at hnone
        contradiction

/-- One order is stored and an older version of it refused; another is stored and, a second
later, deleted. -/
def sampleExecuted : Executed :=
  (((((Executed.empty 0).execute ⟨bytes "a", 7, some (bytes "1")⟩).execute
    ⟨bytes "a", 5, some (bytes "0")⟩).execute ⟨bytes "b", 3, some (bytes "2")⟩).tick 1000).execute
      ⟨bytes "b", 4, none⟩

theorem sampleExecuted_reach :
    Executed.Reach (fun id => id = bytes "a" ∨ id = bytes "b") sampleExecuted :=
  .step (.step (.step (.step (.step (.empty 0) (.execute (.inl rfl))) (.execute (.inl rfl)))
    (.execute (.inr rfl))) (.tick 1000)) (.execute (.inr rfl))

theorem sampleExecuted_eq : sampleExecuted.redis =
    written ⟨bytes "b", 4, none⟩ ((written ⟨bytes "b", 3, some (bytes "2")⟩
      (written ⟨bytes "a", 7, some (bytes "1")⟩ (Redis.empty 0))).tick 1000) := by
  rw [sampleExecuted, execute_accepted (x := ⟨bytes "b", 4, none⟩) (by decide +kernel),
    execute_refused (x := ⟨bytes "a", 5, some (bytes "0")⟩) (by decide +kernel)]
  rfl

theorem value_guarded_once : sampleExecuted.accepted.length = 3 ∧
    (∃ x, sampleExecuted.last (bytes "a") = some x ∧ x.value = some (bytes "1") ∧
      sampleExecuted.redis.live (redisKey (bytes "a") ++ bytes ":lsn") =
        some ⟨intText x.lsn, 86400000⟩) ∧
    ∃ x, sampleExecuted.last (bytes "b") = some x ∧ x.value = none := by
  have separate : Separate (fun id => id = bytes "a" ∨ id = bytes "b") := by
    rintro a b (rfl | rfl) (rfl | rfl)
    all_goals decide
  have stored : sampleExecuted.redis.live (redisKey (bytes "a")) = some ⟨bytes "1", 86400000⟩ := by
    rw [sampleExecuted_eq]
    rfl
  refine ⟨by decide +kernel, ?_, ?_⟩
  · exact (value_guarded separate sampleExecuted_reach (.inl rfl)).1 _ stored
  · refine (value_guarded separate sampleExecuted_reach (.inr rfl)).2 ?_ ?_
    all_goals rw [sampleExecuted_eq]
    all_goals rfl

end CdcPipeline.Proofs.ValueGuard
