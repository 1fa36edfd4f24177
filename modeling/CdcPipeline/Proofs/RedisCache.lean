import CdcPipeline.Library.Versioned
import CdcPipeline.Model.Debezium
import CdcPipeline.Model.RedisUpdater

namespace CdcPipeline.Proofs.RedisCache

open Library Text Versioned Model Debezium RedisUpdater

def command (e : Event) : Command :=
  match e.text with
  | some t => upsertCommand e.id t e.lsn
  | none => delCommand e.id e.lsn

/-- What is left to do with the reply. -/
def conclude (e : Event) (offset : Nat) (reply : Option Reply) : RedisProg Unit :=
  match e.image with
  | some row => do
    let reply ← RedisProg.checkReply (bytes "Redis upsert") reply
    if reply = .integer 0 then RedisProg.log (.redisStaleEventIgnored e.id e.lsn offset)
    else
      let status ← Prog.ofExcept (Record.stringValue row (bytes "status") (bytes "UNKNOWN"))
      RedisProg.log (.redisUpdated e.id status e.lsn offset)
  | none => do
    let _ ← RedisProg.checkReply (bytes "Redis delete") reply
    RedisProg.log (.redisDeleted e.id e.lsn offset)

/-- For a well-formed event `ProcessRecord` connects, sends its command and reads the reply. -/
theorem processRecord_event (e : Event) (key : Bytes) (offset : Nat) :
    processRecord e.record key offset = RedisUpdater.ensureConnected.bind
      (fun _ => (RedisProg.redisCommand (command e)).bind (conclude e offset)) := by
  have hne := e.id_ne_nil
  unfold conclude command
  cases himg : e.image with
  | some row =>
    obtain ⟨hdata, hrow⟩ := e.orderData_upsert himg
    obtain ⟨t, ht, htext⟩ := e.dump_image himg
    simp only [processRecord, hdata, processUpsert, orderId_row hrow hne, e.extractLsn, ht, htext,
      Prog.ofExcept_ok, Prog.bind_eq, Prog.ret_bind, hne, if_false]
  | none =>
    obtain ⟨hdata, row, hbefore, hrow⟩ := e.orderData_delete himg
    have htext : e.text = none := by simp [Event.text, himg]
    simp only [processRecord, hdata, processDelete, hbefore, orderId_row hrow hne, e.extractLsn,
      htext, Prog.ofExcept_ok, Prog.bind_eq, Prog.ret_bind, hne, if_false]

def lsnKey (id : Bytes) : Bytes := redisKey id ++ bytes ":lsn"

/-- The version and the value an order has in Redis. -/
def Shows (r : Redis) (id : Bytes) : Cell Nat (Option Bytes) → Prop
  | none => r.get (lsnKey id) = none ∧ r.get (redisKey id) = none
  | some (lsn, value) =>
    lsn < 2 ^ 53 ∧ r.get (lsnKey id) = some (intText lsn) ∧ r.get (redisKey id) = value

def offered (e : Event) : Nat × Option Bytes := (e.lsn, e.text)

theorem shows_empty (now : Nat) (id : Bytes) : Shows (Redis.empty now) id none := ⟨rfl, rfl⟩

theorem uuid_length {id : Bytes} (h : isUuid id = true) : id.length = 36 := by
  simp only [isUuid, Bool.and_eq_true, decide_eq_true_eq] at h
  exact h.1.1.1.1.1

theorem redisKey_inj {id id' : Bytes} (h : redisKey id = redisKey id') : id = id' :=
  List.append_cancel_left h

theorem lsnKey_inj {id id' : Bytes} (h : lsnKey id = lsnKey id') : id = id' :=
  redisKey_inj (List.append_cancel_right h)

/-- An order's own key is another one's version key only if its id ends like that. -/
theorem redisKey_ne_lsnKey {a b : Bytes} (h : a ≠ b ++ bytes ":lsn") : redisKey a ≠ lsnKey b := by
  intro he
  rw [lsnKey, redisKey, redisKey, List.append_assoc] at he
  exact h (List.append_cancel_left he)

theorem uuid_ne_suffixed {a b : Bytes} (ha : isUuid a = true) (hb : isUuid b = true) :
    a ≠ b ++ bytes ":lsn" := by
  intro he
  have hl := congrArg List.length he
  rw [List.length_append, uuid_length ha, uuid_length hb] at hl
  have h4 : (bytes ":lsn").length = 4 := rfl
  omega

theorem stale_cell {lsn : Nat} (hl : lsn < 2 ^ 53) {c : Cell Nat (Option Bytes)} {r : Redis}
    {id : Bytes} (h : Shows r id c) :
    Redis.stale (r.get (lsnKey id)) (intText lsn) = true ↔ AtLeast lsn c := by
  cases c with
  | none =>
    rw [h.1, Redis.stale_none]
    refine ⟨fun hf => by contradiction, ?_⟩
    rintro ⟨y, hy, -⟩
    contradiction
  | some y =>
    obtain ⟨n, v⟩ := y
    obtain ⟨hn, hg, -⟩ := h
    rw [hg, Redis.stale_intText (by rw [abs_of_nonneg] <;> omega) (by rw [abs_of_nonneg] <;> omega),
      decide_eq_true_eq, Int.ofNat_le]
    refine ⟨fun hle => ⟨_, rfl, hle⟩, ?_⟩
    rintro ⟨y, hy, hle⟩
    obtain rfl := Option.some.inj hy
    exact hle

theorem readTtl_ttl : Redis.readTtl RedisUpdater.ttl = some 86400 := by decide

/-- What the upsert script does: nothing but say so, or both keys with the same expiry. -/
theorem exec_upsert (id t : Bytes) (lsn : Int) (r : Redis) :
    Redis.exec (upsertCommand id t lsn) r =
      if Redis.stale (r.get (lsnKey id)) (intText lsn) = true then (.integer 0, r)
      else (.integer 1, (r.setEx (redisKey id) t 86400).setEx (lsnKey id) (intText lsn) 86400) := by
  simp only [upsertCommand, Redis.exec, Redis.luaUpsert, Redis.nth, List.getD_cons_zero,
    List.getD_cons_succ, Nat.sub_self, Nat.add_one_sub_one, readTtl_ttl]
  rfl

theorem exec_del (id : Bytes) (lsn : Int) (r : Redis) :
    Redis.exec (delCommand id lsn) r =
      if Redis.stale (r.get (lsnKey id)) (intText lsn) = true then (.integer 0, r)
      else (.integer 1, (r.del (redisKey id)).setEx (lsnKey id) (intText lsn) 86400) := by
  simp only [delCommand, Redis.exec, Redis.luaDel, Redis.nth, List.getD_cons_zero,
    List.getD_cons_succ, Nat.sub_self, Nat.add_one_sub_one, readTtl_ttl]
  rfl

/-- A command that is not stale writes both keys and reports it. -/
theorem exec_fresh (e : Event) {r : Redis}
    (h : Redis.stale (r.get (lsnKey e.id)) (intText e.lsn) = false) :
    Redis.exec (command e) r = (.integer 1,
      (match e.text with
        | some t => r.setEx (redisKey e.id) t 86400
        | none => r.del (redisKey e.id)).setEx (lsnKey e.id) (intText e.lsn) 86400) := by
  unfold command
  cases e.text with
  | some t => rw [exec_upsert, h, if_neg Bool.false_ne_true]
  | none => rw [exec_del, h, if_neg Bool.false_ne_true]

theorem exec_stale (e : Event) {r : Redis}
    (h : Redis.stale (r.get (lsnKey e.id)) (intText e.lsn) = true) :
    Redis.exec (command e) r = (.integer 0, r) := by
  unfold command
  cases e.text with
  | some t => rw [exec_upsert, if_pos h]
  | none => rw [exec_del, if_pos h]

/-- The order's cell is offered the event. -/
theorem exec_shows (e : Event) {r : Redis} {c : Cell Nat (Option Bytes)} (h : Shows r e.id c) :
    Shows (Redis.exec (command e) r).2 e.id (offer c (offered e)) := by
  by_cases hs : Redis.stale (r.get (lsnKey e.id)) (intText e.lsn) = true
  · rw [exec_stale e hs, offer_eq_of_atLeast (x := offered e) ((stale_cell e.bound h).mp hs)]
    exact h
  · have hnew : offer c (offered e) = some (offered e) := by
      apply offer_newer
      intro y hy
      by_contra hle
      exact hs ((stale_cell e.bound h).mpr ⟨y, hy, Nat.le_of_not_lt hle⟩)
    have hne := redisKey_ne_lsnKey (uuid_ne_suffixed e.uuid e.uuid)
    rw [exec_fresh e (Bool.eq_false_iff.mpr hs), hnew]
    refine ⟨e.bound, Redis.get_setEx_self _ _ _ _, ?_⟩
    rw [Redis.get_setEx_ne _ _ _ hne]
    cases e.text with
    | some t => simp only [Redis.get_setEx_self]
    | none => simp only [Redis.get_del_self]

/-- Every other order's cell is left alone. -/
theorem exec_shows_ne (e : Event) {r : Redis} {id : Bytes} (hid : isUuid id = true)
    (hne : id ≠ e.id) {c : Cell Nat (Option Bytes)} (h : Shows r id c) :
    Shows (Redis.exec (command e) r).2 id c := by
  by_cases hs : Redis.stale (r.get (lsnKey e.id)) (intText e.lsn) = true
  · rw [exec_stale e hs]
    exact h
  · have same : ∀ k, k ≠ redisKey e.id → k ≠ lsnKey e.id →
        (Redis.exec (command e) r).2.get k = r.get k := by
      intro k hk hl
      rw [exec_fresh e (Bool.eq_false_iff.mpr hs)]
      simp only [Redis.get_setEx_ne _ _ _ hl]
      cases e.text with
      | some t => exact Redis.get_setEx_ne _ _ _ hk
      | none => exact Redis.get_del_ne _ hk
    have hkey := same (redisKey id) (fun he => hne (redisKey_inj he))
      (redisKey_ne_lsnKey (uuid_ne_suffixed hid e.uuid))
    have hlsn := same (lsnKey id) (Ne.symm (redisKey_ne_lsnKey (uuid_ne_suffixed e.uuid hid)))
      (fun he => hne (lsnKey_inj he))
    cases c with
    | none => exact ⟨hlsn ▸ h.1, hkey ▸ h.2⟩
    | some y => exact ⟨h.1, hlsn ▸ h.2.1, hkey ▸ h.2.2⟩

/-- The scripts answer with an integer, never with an error. -/
theorem exec_reply (e : Event) (r : Redis) :
    (Redis.exec (command e) r).1 = .integer 0 ∨ (Redis.exec (command e) r).1 = .integer 1 := by
  by_cases hs : Redis.stale (r.get (lsnKey e.id)) (intText e.lsn) = true
  · rw [exec_stale e hs]
    exact Or.inl rfl
  · rw [exec_fresh e (Bool.eq_false_iff.mpr hs)]
    exact Or.inr rfl

end CdcPipeline.Proofs.RedisCache
