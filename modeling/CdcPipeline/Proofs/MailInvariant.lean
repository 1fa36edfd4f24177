import CdcPipeline.Model.Mail

namespace CdcPipeline.Proofs.MailInvariant

open Library Text Model Notifier

variable {ι : Type}

/-- The email a record asks for: its order, and the status it has reached. -/
def wanted (doc : Json) (key : Bytes) : Option (Bytes × Bytes) :=
  match Record.orderData doc with
  | none => none
  | some row =>
    match Record.orderId row key, Record.stringValue row (bytes "status") [] with
    | .ok id, .ok status => if id ≠ [] ∧ notifies status = true then some (id, status) else none
    | _, _ => none

/-- A record makes the notifier throw, or do nothing, or claim what it asks for. -/
theorem processRecord_cases (doc : Json) (key : Bytes) (offset : Nat) :
    (∃ e, Notifier.processRecord doc key offset = .raise e) ∨
      (Notifier.processRecord doc key offset = .ret () ∧ wanted doc key = none) ∨
      ∃ o st customer, notifies st = true ∧ wanted doc key = some (o, st) ∧
        Notifier.processRecord doc key offset = notify o st customer offset := by
  unfold Notifier.processRecord wanted
  cases Record.orderData doc with
  | none => exact Or.inr (Or.inl ⟨rfl, rfl⟩)
  | some row =>
    simp only [processRow, Prog.bind_eq, Prog.pure_eq]
    cases Record.orderId row key with
    | error e => exact Or.inl ⟨e, rfl⟩
    | ok id =>
      simp only [Prog.ofExcept_ok, Prog.ret_bind]
      by_cases hid : id = []
      · refine Or.inr (Or.inl ⟨if_pos hid, ?_⟩)
        cases Record.stringValue row (bytes "status") [] <;> simp [hid]
      · rw [if_neg hid]
        cases Record.stringValue row (bytes "status") [] with
        | error e => exact Or.inl ⟨e, rfl⟩
        | ok status =>
          cases customerId row with
          | error e => exact Or.inl ⟨e, rfl⟩
          | ok customer =>
            simp only [Prog.ofExcept_ok, Prog.ret_bind]
            by_cases notified : notifies status = true
            · exact Or.inr (Or.inr ⟨id, status, customer, notified, if_pos ⟨hid, notified⟩,
                if_pos notified⟩)
            · exact Or.inr (Or.inl ⟨if_neg notified, if_neg fun h => notified h.2⟩)

theorem notifies_cases {status : Bytes} (h : notifies status = true) :
    status = bytes "SHIPPED" ∨ status = bytes "DELIVERED" := by
  simpa [notifies] using h

/-- For any two order ids, with or without colons, and the statuses that are mailed. -/
theorem idempotencyKey_inj {o o' st st' : Bytes} (h : notifies st = true)
    (h' : notifies st' = true) (he : idempotencyKey o st = idempotencyKey o' st') :
    o = o' ∧ st = st' := by
  have third : ∀ x s : Bytes, (idempotencyKey x s).reverse[2]? = (s.reverse ++
      (bytes ":").reverse ++ x.reverse ++ (bytes "email_sent:").reverse)[2]? := by
    intro x s
    simp [idempotencyKey, List.reverse_append, List.append_assoc]
  have hthird := congrArg (fun k => k.reverse[2]?) he
  simp only [third] at hthird
  have hst : st = st' := by
    rcases notifies_cases h with rfl | rfl <;> rcases notifies_cases h' with rfl | rfl
    · rfl
    · exact absurd hthird (by simp [bytes])
    · exact absurd hthird (by simp [bytes])
    · rfl
  subst hst
  exact ⟨List.append_cancel_left (List.append_cancel_right (List.append_cancel_right he)), rfl⟩

def IsMailKey (k : Bytes) : Prop := ∃ o st, notifies st = true ∧ k = idempotencyKey o st

theorem mailKey_ne_redisKey {k id : Bytes} (h : IsMailKey k) : k ≠ RedisUpdater.redisKey id := by
  obtain ⟨o, st, -, rfl⟩ := h
  intro he
  have hhead := congrArg List.head? he
  simp [idempotencyKey, RedisUpdater.redisKey, bytes] at hhead

/-- The commands the consumers send. -/
inductive Tame : Command → Prop where
  | claim {o st} (notified : notifies st = true) : Tame (claimCommand o st)
  | eval (script : Script) (id : Bytes) (argv : List Bytes) :
      Tame (.eval script [RedisUpdater.redisKey id] argv)

/-- A script leaves every key alone that is not its order's. -/
theorem eval_store (script : Script) (id : Bytes) (argv : List Bytes) (r : Redis) {k : Bytes}
    (hk : k ≠ RedisUpdater.redisKey id) (hl : k ≠ RedisUpdater.redisKey id ++ bytes ":lsn") :
    (Redis.exec (.eval script [RedisUpdater.redisKey id] argv) r).2.store k = r.store k ∧
      (Redis.exec (.eval script [RedisUpdater.redisKey id] argv) r).2.now = r.now := by
  cases script with
  | luaUpsert =>
    simp only [Redis.exec, Redis.luaUpsert, Redis.nth, Nat.sub_self, List.getD_cons_zero]
    split
    · exact ⟨rfl, rfl⟩
    · split
      · exact ⟨rfl, rfl⟩
      · exact ⟨(Redis.store_setEx_ne _ _ _ hl).trans (Redis.store_setEx_ne _ _ _ hk), rfl⟩
  | luaDel =>
    simp only [Redis.exec, Redis.luaDel, Redis.nth, Nat.sub_self, List.getD_cons_zero]
    split
    · exact ⟨rfl, rfl⟩
    · split
      · exact ⟨Redis.store_del_ne _ hk, rfl⟩
      · exact ⟨(Redis.store_setEx_ne _ _ _ hl).trans (Redis.store_del_ne _ hk), rfl⟩

theorem eval_reply (script : Script) (keys argv : List Bytes) (r : Redis) :
    (Redis.exec (.eval script keys argv) r).1 ≠ .status (bytes "OK") := by
  cases script with
  | luaUpsert =>
    simp only [Redis.exec, Redis.luaUpsert]
    split
    · exact fun h => by contradiction
    · split <;> exact fun h => by contradiction
  | luaDel =>
    simp only [Redis.exec, Redis.luaDel]
    split
    · exact fun h => by contradiction
    · split <;> exact fun h => by contradiction

theorem claim_exec (o st : Bytes) (r : Redis) :
    Redis.exec (claimCommand o st) r =
      if (r.live (idempotencyKey o st)).isSome then (.nil, r)
      else (.status (bytes "OK"), r.setEx (idempotencyKey o st) (bytes "1") 86400) := by
  have httl : Redis.readTtl (bytes "86400") = some 86400 := by decide
  simp only [claimCommand, Redis.exec, httl]

def day : Nat := 86400 * 1000

def expiry (r : Redis) (k : Bytes) : Option Nat := (r.store k).map Entry.expireAt

/-- What Redis holds of the mail keys, and what it decided about them. -/
def Kept (s : Mail ι) : Prop :=
  Lease.Kept IsMailKey day s.net.redis.now (expiry s.net.redis) s.wins s.losses

theorem free_of_live {r : Redis} {k : Bytes} (h : (r.live k).isSome = false) {u : Nat}
    (hu : expiry r k = some u) : u < r.now := by
  obtain ⟨e, he, rfl⟩ := Option.map_eq_some_iff.mp hu
  by_contra hle
  simp [Redis.live, he, Nat.le_of_not_lt hle] at h

theorem taken_of_live {r : Redis} {k : Bytes} (h : (r.live k).isSome = true) :
    ∃ u, expiry r k = some u ∧ r.now ≤ u := by
  obtain ⟨e, he⟩ := Option.isSome_iff_exists.mp h
  obtain ⟨hstore, hle⟩ := Option.filter_eq_some_iff.mp he
  exact ⟨e.expireAt, by simp [expiry, hstore], by simpa using hle⟩

/-- What executing a command records. A claim is won or lost, a script is neither. -/
theorem execute_claim (s : Mail ι) (o st : Bytes) :
    s.execute (claimCommand o st) =
      if (s.net.redis.live (idempotencyKey o st)).isSome then
        { s with losses := s.losses ++ [⟨idempotencyKey o st, s.net.redis.now⟩] }
      else { s with
        wins := s.wins ++ [⟨idempotencyKey o st, s.net.redis.now⟩]
        net := { s.net with
          redis := s.net.redis.setEx (idempotencyKey o st) (bytes "1") 86400 } } := by
  rw [Mail.execute, RedisNet.exec, claim_exec]
  split
  · rfl
  · rfl

theorem execute_kept {s : Mail ι} {c : Command} (hc : Tame c) (h : Kept s) :
    Kept (s.execute c) := by
  cases hc with
  | @claim o st notified =>
    have hkey : IsMailKey (idempotencyKey o st) := ⟨o, st, notified, rfl⟩
    rw [execute_claim]
    split
    · rename_i hlive
      obtain ⟨u, hu, hle⟩ := taken_of_live hlive
      exact h.deny hkey hu hle
    · rename_i hlive
      apply h.grant hkey
      · exact fun u hu => free_of_live (Bool.eq_false_iff.mpr hlive) hu
      · simp [expiry, Redis.setEx, day]
      · intro k hk
        simp only [expiry, Redis.store_setEx_ne _ _ _ hk]
  | eval script id argv =>
    have hsame : ∀ k, IsMailKey k →
        (Redis.exec (.eval script [RedisUpdater.redisKey id] argv) s.net.redis).2.store k =
            s.net.redis.store k ∧
          (Redis.exec (.eval script [RedisUpdater.redisKey id] argv) s.net.redis).2.now =
            s.net.redis.now :=
      fun k hk => eval_store script id argv s.net.redis (mailKey_ne_redisKey hk)
        (mailKey_ne_redisKey hk)
    have hnow := (hsame (idempotencyKey [] (bytes "SHIPPED")) ⟨_, _, by decide, rfl⟩).2
    apply h.frame (le_of_eq hnow.symm)
    intro k hk
    exact congrArg (Option.map Entry.expireAt) (hsame k hk).1

/-- Win number `n` was for this order and status, one that is mailed. -/
def WonFor (s : Mail ι) (n : Nat) (o st : Bytes) : Prop :=
  notifies st = true ∧ ∃ w, s.wins[n]? = some w ∧ w.key = idempotencyKey o st

structure Spent (s : Mail ι) : Prop where
  held : ∀ i n, s.held i = some n → n < s.wins.length ∧ ∀ d ∈ s.sent, d.claim ≠ some n
  apart : ∀ i j n, s.held i = some n → s.held j = some n → i = j
  sent : ∀ d ∈ s.sent, ∃ n, d.claim = some n ∧ n < d.after ∧ WonFor s n d.order d.status
  once : s.sent.Pairwise (fun d d' => d.claim ≠ d'.claim)

/-- `i` holds a win for this order and status. -/
def Holds (i : ι) (o st : Bytes) (s : Mail ι) : Prop :=
  ∃ n, s.held i = some n ∧ WonFor s n o st

def Lost (o st : Bytes) (s : Mail ι) : Prop :=
  ∃ l ∈ s.losses, l.key = idempotencyKey o st

/-- An email is skipped because a claim for its order and status was lost. -/
def Excused (s : Mail ι) : Prop :=
  ∀ k ∈ s.skipped, notifies k.status = true ∧ Lost k.order k.status s

structure Invariant (s : Mail ι) : Prop where
  kept : Kept s
  spent : Spent s
  excused : Excused s
  late : ∀ c ∈ s.net.late, Tame c

theorem empty_invariant (now : Nat) : Invariant (Mail.empty now : Mail ι) where
  kept := Lease.kept_nil
  spent := ⟨nofun, nofun, fun _ h => absurd h List.not_mem_nil, .nil⟩
  excused := fun _ h => absurd h List.not_mem_nil
  late := fun _ h => absurd h List.not_mem_nil

/-- What a step of others may do. -/
structure Rely (i : ι) (s s' : Mail ι) : Prop where
  held : s'.held i = s.held i
  wins : s.wins <+: s'.wins
  losses : s.losses <+: s'.losses

theorem Rely.refl (i : ι) (s : Mail ι) : Rely i s s :=
  ⟨rfl, List.prefix_rfl, List.prefix_rfl⟩

theorem Rely.trans {i : ι} {s s₁ s₂ : Mail ι} (h : Rely i s s₁) (h' : Rely i s₁ s₂) :
    Rely i s s₂ :=
  ⟨h'.held.trans h.held, h.wins.trans h'.wins, h.losses.trans h'.losses⟩

theorem WonFor.grow {s s' : Mail ι} {n : Nat} {o st : Bytes} (h : WonFor s n o st)
    (hw : s.wins <+: s'.wins) : WonFor s' n o st := by
  obtain ⟨notified, w, hn, hkey⟩ := h
  obtain ⟨rest, hrest⟩ := hw
  refine ⟨notified, w, ?_, hkey⟩
  rw [← hrest]
  exact List.getElem?_append_left (List.getElem?_eq_some_iff.mp hn).1 ▸ hn

theorem WonFor.lt {s : Mail ι} {n : Nat} {o st : Bytes} (h : WonFor s n o st) :
    n < s.wins.length := by
  obtain ⟨-, w, hn, -⟩ := h
  exact (List.getElem?_eq_some_iff.mp hn).1

theorem Holds.stable {i : ι} {o st : Bytes} {s s' : Mail ι} (hr : Rely i s s')
    (h : Holds i o st s) : Holds i o st s' := by
  obtain ⟨n, hn, hwon⟩ := h
  exact ⟨n, hr.held.trans hn, hwon.grow hr.wins⟩

theorem Lost.stable {i : ι} {o st : Bytes} {s s' : Mail ι} (hr : Rely i s s')
    (h : Lost o st s) : Lost o st s' := by
  obtain ⟨l, hl, hkey⟩ := h
  exact ⟨l, hr.losses.subset hl, hkey⟩

theorem Spent.grow {s s' : Mail ι} (h : Spent s) (hheld : s'.held = s.held)
    (hsent : s'.sent = s.sent) (hw : s.wins <+: s'.wins) : Spent s' where
  held := by
    intro i n hn
    rw [hheld] at hn
    rw [hsent]
    obtain ⟨hlt, hfresh⟩ := h.held i n hn
    exact ⟨hlt.trans_le hw.length_le, hfresh⟩
  apart := by
    rw [hheld]
    exact h.apart
  sent := by
    intro d hd
    rw [hsent] at hd
    obtain ⟨n, hn, hafter, hwon⟩ := h.sent d hd
    exact ⟨n, hn, hafter, hwon.grow hw⟩
  once := by
    rw [hsent]
    exact h.once

/-- Executing a command only adds to what was decided. -/
theorem execute_grows (s : Mail ι) (c : Command) :
    (s.execute c).held = s.held ∧ (s.execute c).sent = s.sent ∧
      (s.execute c).skipped = s.skipped ∧ (s.execute c).net.late = s.net.late ∧
      s.wins <+: (s.execute c).wins ∧ s.losses <+: (s.execute c).losses := by
  cases c with
  | eval script keys argv => exact ⟨rfl, rfl, rfl, rfl, List.prefix_rfl, List.prefix_rfl⟩
  | setNx key value ttl =>
    rw [Mail.execute]
    cases (Redis.exec (.setNx key value ttl) s.net.redis).1 with
    | nil => exact ⟨rfl, rfl, rfl, rfl, List.prefix_rfl, List.prefix_append _ _⟩
    | status t => exact ⟨rfl, rfl, rfl, rfl, List.prefix_append _ _, List.prefix_rfl⟩
    | integer n => exact ⟨rfl, rfl, rfl, rfl, List.prefix_rfl, List.prefix_rfl⟩
    | string t => exact ⟨rfl, rfl, rfl, rfl, List.prefix_rfl, List.prefix_rfl⟩
    | error t => exact ⟨rfl, rfl, rfl, rfl, List.prefix_rfl, List.prefix_rfl⟩

theorem execute_rely (i : ι) (s : Mail ι) (c : Command) : Rely i s (s.execute c) := by
  obtain ⟨hheld, -, -, -, hw, hl⟩ := execute_grows s c
  exact ⟨congrFun hheld i, hw, hl⟩

theorem Excused.grow {s s' : Mail ι} (h : Excused s) (hskipped : s'.skipped = s.skipped)
    (hl : s.losses <+: s'.losses) : Excused s' := by
  intro k hk
  rw [hskipped] at hk
  obtain ⟨notified, l, hmem, hkey⟩ := h k hk
  exact ⟨notified, l, hl.subset hmem, hkey⟩

theorem execute_invariant {s : Mail ι} {c : Command} (hc : Tame c) (h : Invariant s) :
    Invariant (s.execute c) := by
  obtain ⟨hheld, hsent, hskipped, hlate, hw, hl⟩ := execute_grows s c
  refine ⟨execute_kept hc h.kept, h.spent.grow hheld hsent hw, h.excused.grow hskipped hl, ?_⟩
  rw [hlate]
  exact h.late

theorem skip_invariant {s : Mail ι} (h : Invariant s) {o st : Bytes}
    (notified : notifies st = true) (hlost : Lost o st s) : Invariant (s.skip o st) := by
  refine ⟨h.kept, ⟨h.spent.held, h.spent.apart, h.spent.sent, h.spent.once⟩, ?_, h.late⟩
  intro k hk
  rcases List.mem_append.mp hk with hk | hk
  · exact h.excused k hk
  · rw [List.mem_singleton.mp hk]
    exact ⟨notified, hlost⟩

theorem env_step {s s' : Mail ι} (h : Invariant s) (he : Mail.Env s s') :
    Invariant s' ∧ ∀ i, Rely i s s' := by
  cases he with
  | tick elapsed =>
    have hkept : Kept { s with net := { s.net with redis := s.net.redis.tick elapsed } } :=
      h.kept.frame (Nat.le_add_right _ _) (fun _ _ => rfl)
    refine ⟨⟨hkept, ?_, h.excused, h.late⟩, ?_⟩
    · exact ⟨h.spent.held, h.spent.apart, h.spent.sent, h.spent.once⟩
    · exact fun i => ⟨rfl, List.prefix_rfl, List.prefix_rfl⟩
  | @arrives c sent =>
    have hinv : Invariant { s with net := { s.net with late := s.net.late.erase c } } :=
      ⟨h.kept, ⟨h.spent.held, h.spent.apart, h.spent.sent, h.spent.once⟩, h.excused,
        fun c hc => h.late c (List.mem_of_mem_erase hc)⟩
    refine ⟨execute_invariant (h.late c sent) hinv, fun i => ?_⟩
    have hrely := execute_rely i { s with net := { s.net with late := s.net.late.erase c } } c
    exact ⟨hrely.held, hrely.wins, hrely.losses⟩

/-- A command is on its way when its client gives up. -/
theorem late_step {s : Mail ι} {c : Command} (hc : Tame c) (h : Invariant s) :
    Invariant { s with net := { s.net with late := c :: s.net.late } } ∧
      ∀ j, Rely j s { s with net := { s.net with late := c :: s.net.late } } := by
  refine ⟨⟨h.kept, ⟨h.spent.held, h.spent.apart, h.spent.sent, h.spent.once⟩, h.excused, ?_⟩,
    fun j => ⟨rfl, List.prefix_rfl, List.prefix_rfl⟩⟩
  intro c' hc'
  rcases List.mem_cons.mp hc' with rfl | hc'
  · exact hc
  · exact h.late c' hc'

section Steps

variable [DecidableEq ι]

/-- The newest win is nobody's yet, so it may be held. -/
theorem Spent.take {s : Mail ι} (h : Spent s) (i : ι) {s' : Mail ι} {w : Lease.Request Bytes}
    (hwins : s'.wins = s.wins ++ [w]) (hsent : s'.sent = s.sent)
    (hheld : s'.held = Function.update s.held i (some s.wins.length)) : Spent s' := by
  have hw : s.wins <+: s'.wins := hwins ▸ List.prefix_append _ _
  refine ⟨?_, ?_, ?_, hsent ▸ h.once⟩
  · intro j n hn
    rw [hheld] at hn
    rw [hsent]
    by_cases hj : j = i
    · subst hj
      rw [Function.update_self] at hn
      obtain rfl := Option.some.inj hn
      refine ⟨by simp [hwins], ?_⟩
      intro d hd he
      obtain ⟨n, hn, -, hwon⟩ := h.sent d hd
      rw [hn] at he
      exact absurd hwon.lt (Option.some.inj he ▸ lt_irrefl _)
    · rw [Function.update_of_ne hj] at hn
      obtain ⟨hlt, hfresh⟩ := h.held j n hn
      exact ⟨hlt.trans_le hw.length_le, hfresh⟩
  · have fresh : ∀ j, s.held j ≠ some s.wins.length :=
      fun j hj => absurd (h.held j _ hj).1 (lt_irrefl _)
    intro j k n hj hk
    rw [hheld] at hj hk
    by_cases hji : j = i
    · by_cases hki : k = i
      · exact hji.trans hki.symm
      · subst hji
        rw [Function.update_self] at hj
        rw [Function.update_of_ne hki] at hk
        exact absurd (hk.trans hj.symm) (fresh k)
    · rw [Function.update_of_ne hji] at hj
      by_cases hki : k = i
      · subst hki
        rw [Function.update_self] at hk
        exact absurd (hj.trans hk.symm) (fresh j)
      · rw [Function.update_of_ne hki] at hk
        exact h.apart j k n hj hk
  · intro d hd
    rw [hsent] at hd
    obtain ⟨n, hn, hafter, hwon⟩ := h.sent d hd
    exact ⟨n, hn, hafter, hwon.grow hw⟩

theorem held_of_drop {s : Mail ι} {i j : ι} {n : Nat} (h : (s.crashed i).held j = some n) :
    j ≠ i ∧ s.held j = some n := by
  have hupd : Function.update s.held i none j = some n := h
  by_cases hj : j = i
  · subst hj
    rw [Function.update_self] at hupd
    contradiction
  · rw [Function.update_of_ne hj] at hupd
    exact ⟨hj, hupd⟩

theorem Spent.drop {s : Mail ι} (h : Spent s) (i : ι) : Spent (s.crashed i) where
  held := fun j n hn => h.held j n (held_of_drop hn).2
  apart := fun j k n hj hk => h.apart j k n (held_of_drop hj).2 (held_of_drop hk).2
  sent := h.sent
  once := h.once

theorem Spent.send {s : Mail ι} (h : Spent s) {i : ι} {n : Nat} {o st : Bytes}
    (hheld : s.held i = some n) (hwon : WonFor s n o st) : Spent (s.send i o st) := by
  have hdrop := h.drop i
  refine ⟨?_, hdrop.apart, ?_, ?_⟩
  · intro j m hm
    obtain ⟨hlt, hfresh⟩ := hdrop.held j m hm
    refine ⟨hlt, ?_⟩
    intro d hd
    rcases List.mem_append.mp hd with hd | hd
    · exact hfresh d hd
    · rw [List.mem_singleton.mp hd]
      intro he
      obtain ⟨hj, hm'⟩ := held_of_drop hm
      exact hj (h.apart j i m hm' he)
  · intro d hd
    rcases List.mem_append.mp hd with hd | hd
    · exact h.sent d hd
    · rw [List.mem_singleton.mp hd]
      exact ⟨n, hheld, hwon.lt, hwon⟩
  · apply List.pairwise_append.mpr
    refine ⟨h.once, List.pairwise_singleton _ _, ?_⟩
    intro d hd d' hd'
    rw [List.mem_singleton.mp hd']
    exact hheld ▸ (h.held i n hheld).2 d hd

theorem drop_invariant {s : Mail ι} (h : Invariant s) (i : ι) : Invariant (s.crashed i) :=
  ⟨h.kept, h.spent.drop i, h.excused, h.late⟩

theorem send_invariant {s : Mail ι} (h : Invariant s) {i : ι} {n : Nat} {o st : Bytes}
    (hheld : s.held i = some n) (hwon : WonFor s n o st) : Invariant (s.send i o st) :=
  ⟨h.kept, h.spent.send hheld hwon, h.excused, h.late⟩

/-- Dropping or using up what `i` holds is no step of anyone else's. -/
theorem drop_rely {s s' : Mail ι} {i j : ι} (hj : j ≠ i)
    (hheld : s'.held = Function.update s.held i none) (hw : s'.wins = s.wins)
    (hl : s'.losses = s.losses) : Rely j s s' := by
  refine ⟨?_, hw ▸ List.prefix_rfl, hl ▸ List.prefix_rfl⟩
  rw [hheld, Function.update_of_ne hj]

/-- A claim is won and its reply reaches the client. -/
def won (s : Mail ι) (i : ι) (o st : Bytes) : Mail ι :=
  { s with
    wins := s.wins ++ [⟨idempotencyKey o st, s.net.redis.now⟩]
    net := { s.net with
      redis := s.net.redis.setEx (idempotencyKey o st) (bytes "1") 86400 }
    held := Function.update s.held i (some s.wins.length) }

def denied (s : Mail ι) (o st : Bytes) : Mail ι :=
  { s with losses := s.losses ++ [⟨idempotencyKey o st, s.net.redis.now⟩] }

theorem claim_replied (s : Mail ι) (i : ι) (o st : Bytes) :
    let reply := (Redis.exec (claimCommand o st) s.net.redis).1
    let s' := (s.execute (claimCommand o st)).hold i reply
    (reply = .status (bytes "OK") ∧ s' = won s i o st) ∨ (reply = .nil ∧ s' = denied s o st) := by
  intro reply s'
  have hreply : reply = (Redis.exec (claimCommand o st) s.net.redis).1 := rfl
  have hs' : s' = (s.execute (claimCommand o st)).hold i reply := rfl
  rw [claim_exec] at hreply
  rw [execute_claim] at hs'
  split at hs'
  · rename_i hlive
    rw [if_pos hlive] at hreply
    refine Or.inr ⟨hreply, ?_⟩
    rw [hs', hreply]
    rfl
  · rename_i hlive
    rw [if_neg hlive] at hreply
    refine Or.inl ⟨hreply, ?_⟩
    simp only [hs', hreply, Mail.hold, if_true, List.length_append, List.length_singleton,
      Nat.add_sub_cancel, won]

theorem won_invariant {s : Mail ι} {i : ι} {o st : Bytes} (h : Invariant s)
    (hexec : Invariant (s.execute (claimCommand o st)))
    (hs : (s.execute (claimCommand o st)).hold i (.status (bytes "OK")) = won s i o st) :
    Invariant (won s i o st) := by
  refine ⟨?_, h.spent.take i rfl rfl rfl, h.excused, h.late⟩
  rw [← hs]
  exact hexec.kept

theorem won_rely {s : Mail ι} {i j : ι} {o st : Bytes} (hj : j ≠ i) : Rely j s (won s i o st) :=
  ⟨Function.update_of_ne hj _ _, List.prefix_append _ _, List.prefix_rfl⟩

theorem won_holds {s : Mail ι} {i : ι} {o st : Bytes} (notified : notifies st = true) :
    Holds i o st (won s i o st) :=
  ⟨s.wins.length, Function.update_self .., notified, ⟨idempotencyKey o st, s.net.redis.now⟩,
    by simp [won], rfl⟩

omit [DecidableEq ι] in
theorem denied_lost (s : Mail ι) (o st : Bytes) : Lost o st (denied s o st) :=
  ⟨⟨idempotencyKey o st, s.net.redis.now⟩, by simp [denied], rfl⟩

/-- All that may come of a claim: it is won, or lost, or refused, or the client hears
nothing. -/
theorem claim_cases {s s' : Mail ι} {i : ι} {o st : Bytes} {reply : Option Reply}
    (notified : notifies st = true) (h : Invariant s)
    (ha : Mail.Answers i s (claimCommand o st) reply s') :
    Invariant s' ∧ ((reply = some (.status (bytes "OK")) ∧ s' = won s i o st) ∨
      (reply = some .nil ∧ s' = denied s o st) ∨
      ((∃ str, reply = some (.error str)) ∧ s' = s) ∨
      (reply = none ∧ (∀ j, Rely j s s') ∧ s'.sent = s.sent)) := by
  have hexec := execute_invariant (Tame.claim (o := o) notified) h
  cases ha with
  | replied =>
    rcases claim_replied s i o st with ⟨hreply, hs⟩ | ⟨hreply, hs⟩
    · rw [hs]
      rw [hreply] at hs
      exact ⟨won_invariant h hexec hs, Or.inl ⟨congrArg some hreply, rfl⟩⟩
    · refine ⟨?_, Or.inr (Or.inl ⟨congrArg some hreply, hs⟩)⟩
      rw [hreply]
      exact hexec
  | replyLost =>
    exact ⟨hexec, Or.inr (Or.inr (Or.inr ⟨rfl, fun j => execute_rely j s _,
      (execute_grows s _).2.1⟩))⟩
  | notExecuted => exact ⟨h, Or.inr (Or.inr (Or.inr ⟨rfl, fun j => Rely.refl j s, rfl⟩))⟩
  | late =>
    obtain ⟨hinv, hrely⟩ := late_step (Tame.claim (o := o) notified) h
    exact ⟨hinv, Or.inr (Or.inr (Or.inr ⟨rfl, hrely, rfl⟩))⟩
  | refused str => exact ⟨h, Or.inr (Or.inr (Or.inl ⟨⟨str, rfl⟩, rfl⟩))⟩

theorem eval_step {s s' : Mail ι} {i : ι} {script : Script} {id : Bytes} {argv : List Bytes}
    {reply : Option Reply} (h : Invariant s)
    (ha : Mail.Answers i s (.eval script [RedisUpdater.redisKey id] argv) reply s') :
    Invariant s' ∧ ∀ j, Rely j s s' := by
  have hexec := execute_invariant (Tame.eval script id argv) h
  have hrely := fun j => execute_rely j s (.eval script [RedisUpdater.redisKey id] argv)
  cases ha with
  | replied =>
    rw [Mail.hold, if_neg (eval_reply script _ argv s.net.redis)]
    exact ⟨hexec, hrely⟩
  | replyLost => exact ⟨hexec, hrely⟩
  | notExecuted => exact ⟨h, fun j => Rely.refl j s⟩
  | refused str => exact ⟨h, fun j => Rely.refl j s⟩
  | late => exact late_step (.eval script id argv) h

end Steps

end CdcPipeline.Proofs.MailInvariant
