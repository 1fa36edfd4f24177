import CdcPipeline.Proofs.MailInvariant
import CdcPipeline.Proofs.SinkPrograms
import CdcPipeline.Proofs.ValueGuard

namespace CdcPipeline.Proofs.OrdersApart

open Library Text Model Record RedisUpdater RedisCache ValueGuard SinkPrograms

/-- The keys of an order: its value, its version, and a mark for each email. -/
@[mk_iff]
inductive KeyOf (id : Bytes) : Bytes → Prop where
  | value : KeyOf id (redisKey id)
  | version : KeyOf id (lsnKey id)
  | dedup {status} (notified : Notifier.notifies status = true) :
      KeyOf id (Notifier.idempotencyKey id status)

/-- The commands that the two consumers send for an order. -/
inductive CommandOf (id : Bytes) : Command → Prop where
  | script (x : Execution) (own : x.id = id) : CommandOf id x.command
  | claim {status} (notified : Notifier.notifies status = true) :
      CommandOf id (Notifier.claimCommand id status)

def AsksOf (id : Bytes) (op : RedisOp) : Prop := ∀ c, op = .command c → CommandOf id c

/-- A record that `ProcessRecord` takes for the order `id`: its row to store, or the image
that a delete removes, has that id or falls back on the key. -/
def BelongsTo (id : Bytes) (record : Json) (key : Bytes) : Prop :=
  (∃ row, orderData record = some row ∧ orderId row key = .ok id) ∨
    orderData record = none ∧ ∃ row, beforeData record = some row ∧ orderId row key = .ok id

section Asks
variable {id : Bytes} {record : Json} {key : Bytes}

theorem asksOf_connect {name : Bytes} {line : LogEvent} :
    (RedisProg.ensureConnected name line).Asks (AsksOf id) :=
  ensureConnected_asks name line nofun nofun nofun

theorem asksOf_log (line : LogEvent) : (RedisProg.log line).Asks (AsksOf id) :=
  ⟨fun _ h => absurd h RedisOp.noConfusion, fun _ => trivial⟩

theorem asksOf_command {c : Command} (hc : CommandOf id c) {f : Option Reply → RedisProg Unit}
    (hf : ∀ reply, (f reply).Asks (AsksOf id)) :
    ((RedisProg.redisCommand c).bind f).Asks (AsksOf id) :=
  ⟨fun _ h => RedisOp.command.inj h ▸ hc, hf⟩

theorem asksOf_upsert {row : Json} (hid : orderId row key = .ok id) (offset : Nat) :
    (processUpsert record row key offset).Asks (AsksOf id) := by
  rw [processUpsert, hid, Prog.ofExcept_ok, Prog.bind_eq, Prog.ret_bind]
  by_cases hne : id = []
  · rw [if_pos hne]
    exact asksOf_log _
  · rw [if_neg hne]
    refine Prog.Asks.bind asksOf_connect fun _ => ?_
    refine Prog.Asks.bind (Prog.asks_ofExcept _ _) fun text => ?_
    refine asksOf_command (.script ⟨id, extractLsn record, some text⟩ rfl) fun reply => ?_
    refine Prog.Asks.bind (checkReply_asks _ _ reply) fun reply => ?_
    by_cases hreply : reply = .integer 0
    · rw [if_pos hreply]
      exact asksOf_log _
    · rw [if_neg hreply]
      exact Prog.Asks.bind (Prog.asks_ofExcept _ _) fun _ => asksOf_log _

theorem asksOf_delete (h : ∀ row, beforeData record = some row → orderId row key = .ok id)
    (offset : Nat) : (processDelete record key offset).Asks (AsksOf id) := by
  unfold processDelete
  cases hb : beforeData record with
  | none => trivial
  | some before =>
    simp only [h before hb, Prog.ofExcept_ok, Prog.bind_eq, Prog.ret_bind]
    split
    · trivial
    · refine Prog.Asks.bind asksOf_connect fun _ => ?_
      refine asksOf_command (.script ⟨id, extractLsn record, none⟩ rfl) fun reply => ?_
      exact Prog.Asks.bind (checkReply_asks _ _ reply) fun _ => asksOf_log _

theorem asksOf_redisUpdater (h : BelongsTo id record key) (offset : Nat) :
    (RedisUpdater.processRecord record key offset).Asks (AsksOf id) := by
  unfold RedisUpdater.processRecord
  rcases h with ⟨row, hdata, hid⟩ | ⟨hdata, row, hb, hid⟩
  · rw [hdata]
    exact asksOf_upsert hid offset
  · rw [hdata]
    refine asksOf_delete (fun row' hb' => ?_) offset
    rw [hb] at hb'
    exact Option.some.inj hb' ▸ hid

theorem asksOf_notify {status : Bytes} (notified : Notifier.notifies status = true)
    (customer : Bytes) (offset : Nat) :
    (Notifier.notify id status customer offset).Asks (AsksOf id) := by
  refine Prog.Asks.bind asksOf_connect fun _ => ?_
  refine asksOf_command (.claim notified) fun reply => ?_
  refine Prog.Asks.bind (checkReply_asks _ _ reply) fun reply => ?_
  split
  · exact asksOf_log _
  · exact asksOf_log _

/-- The order that a notification is claimed for is the record's. -/
theorem wanted_order (h : BelongsTo id record key) {o status : Bytes}
    (hw : MailInvariant.wanted record key = some (o, status)) : o = id := by
  unfold MailInvariant.wanted at hw
  rcases h with ⟨row, hdata, hid⟩ | ⟨hdata, -⟩
  · simp only [hdata, hid] at hw
    split at hw
    · rename_i o' status' ho _
      split at hw
      · obtain ⟨rfl, -⟩ := Prod.mk.inj (Option.some.inj hw)
        exact (Except.ok.inj ho).symm
      · contradiction
    · contradiction
  · simp only [hdata] at hw
    contradiction

theorem asksOf_notifier (h : BelongsTo id record key) (offset : Nat) :
    (Notifier.processRecord record key offset).Asks (AsksOf id) := by
  rcases MailInvariant.processRecord_cases record key offset with
    ⟨e, he⟩ | ⟨he, -⟩ | ⟨o, status, customer, notified, hw, he⟩
  · rw [he]
    trivial
  · rw [he]
    trivial
  · rw [he, wanted_order h hw]
    exact asksOf_notify notified customer offset

end Asks

/-- The server shows the same under these keys. -/
structure Agree (K : Bytes → Prop) (r r' : Redis) : Prop where
  now : r.now = r'.now
  live : ∀ k, K k → r.live k = r'.live k

theorem Agree.get {K : Bytes → Prop} {r r' : Redis} (h : Agree K r r') {k : Bytes} (hk : K k) :
    r.get k = r'.get k := by
  rw [Redis.get, Redis.get, h.live k hk]

theorem Agree.tick {K : Bytes → Prop} {r r' : Redis} (h : Agree K r r') (elapsed : Nat) :
    Agree K (r.tick elapsed) (r'.tick elapsed) := by
  refine ⟨congrArg (· + elapsed) h.now, fun k hk => ?_⟩
  rw [Redis.live_tick, Redis.live_tick, h.live k hk, h.now]

theorem Agree.setEx {K : Bytes → Prop} {r r' : Redis} (h : Agree K r r') (k v : Bytes)
    (ttl : Nat) : Agree K (r.setEx k v ttl) (r'.setEx k v ttl) := by
  refine ⟨h.now, fun k' hk' => ?_⟩
  by_cases he : k' = k
  · rw [he, Redis.live_setEx_self, Redis.live_setEx_self, h.now]
  · rw [Redis.live_setEx_ne r v ttl he, Redis.live_setEx_ne r' v ttl he, h.live k' hk']

theorem Agree.del {K : Bytes → Prop} {r r' : Redis} (h : Agree K r r') (k : Bytes) :
    Agree K (r.del k) (r'.del k) := by
  refine ⟨h.now, fun k' hk' => ?_⟩
  by_cases he : k' = k
  · rw [he, Redis.live_del_self, Redis.live_del_self]
  · rw [Redis.live_del_ne r he, Redis.live_del_ne r' he, h.live k' hk']

section Commands
variable {id : Bytes} {c : Command}

/-- A command of an order leaves every other key alone. -/
theorem exec_frame (hc : CommandOf id c) (r : Redis) :
    (Redis.exec c r).2.now = r.now ∧
      ∀ k, ¬ KeyOf id k → (Redis.exec c r).2.live k = r.live k := by
  cases hc with
  | script x own =>
    subst own
    rw [exec_command]
    split
    · exact ⟨rfl, fun _ _ => rfl⟩
    · refine ⟨written_now x r, fun k hk => ?_⟩
      have hv : k ≠ redisKey x.id := fun he => hk (he ▸ .value)
      have hl : k ≠ lsnKey x.id := fun he => hk (he ▸ .version)
      unfold written
      rw [Redis.live_setEx_ne _ _ _ hl]
      cases x.value with
      | some v => exact Redis.live_setEx_ne r v _ hv
      | none => exact Redis.live_del_ne r hv
  | claim notified =>
    rw [MailInvariant.claim_exec]
    split
    · exact ⟨rfl, fun _ _ => rfl⟩
    · exact ⟨rfl, fun k hk => Redis.live_setEx_ne r _ _ fun he => hk (he ▸ .dedup notified)⟩

/-- Its reply, and what it leaves under its own keys, hang on those keys alone. -/
theorem exec_agree (hc : CommandOf id c) {r r' : Redis} (h : Agree (KeyOf id) r r') :
    (Redis.exec c r).1 = (Redis.exec c r').1 ∧
      Agree (KeyOf id) (Redis.exec c r).2 (Redis.exec c r').2 := by
  cases hc with
  | script x own =>
    subst own
    have hrefuses : refuses r x = refuses r' x := by
      rw [refuses, refuses, h.get .version]
    rw [exec_command, exec_command, hrefuses]
    split
    · exact ⟨rfl, h⟩
    · refine ⟨rfl, ?_⟩
      unfold written
      cases x.value with
      | some v => exact (h.setEx _ _ _).setEx _ _ _
      | none => exact (h.del _).setEx _ _ _
  | @claim status notified =>
    rw [MailInvariant.claim_exec, MailInvariant.claim_exec, h.live _ (.dedup notified)]
    split
    · exact ⟨rfl, h⟩
    · exact ⟨rfl, h.setEx _ _ _⟩

end Commands

/-- An event, given to RedisUpdater or to Notifier. -/
inductive Turn where
  | update (record : Json) (key : Bytes) (offset : Nat)
  | notify (record : Json) (key : Bytes) (offset : Nat)

namespace Turn

def Of (id : Bytes) : Turn → Prop
  | update record key _ | notify record key _ => BelongsTo id record key

def program : Turn → RedisProg Unit
  | update record key offset => RedisUpdater.processRecord record key offset
  | notify record key offset => Notifier.processRecord record key offset

/-- What `ProcessRecord` returns or throws, what Redis replied to it, and what it left. -/
def run (t : Turn) (r : Redis) : Except Bytes Unit × Exchange :=
  t.program.run Exchange.answer ⟨r, []⟩

end Turn

/-- The outcomes of turns that follow, each after some time. -/
def outcomes : List (Nat × Turn) → Redis → List (Except Bytes Unit × List Reply)
  | [], _ => []
  | (elapsed, t) :: later, r =>
    ((t.run (r.tick elapsed)).1, (t.run (r.tick elapsed)).2.replies) ::
      outcomes later (t.run (r.tick elapsed)).2.redis

/-- One order's part of Redis is as it was, and whatever comes for it later goes the same way. -/
structure Unaffected (id : Bytes) (r r' : Redis) : Prop where
  value : r'.live (redisKey id) = r.live (redisKey id)
  version : r'.live (lsnKey id) = r.live (lsnKey id)
  dedup : ∀ status, Notifier.notifies status = true →
    r'.live (Notifier.idempotencyKey id status) = r.live (Notifier.idempotencyKey id status)
  later : ∀ later : List (Nat × Turn), (∀ l ∈ later, l.2.Of id) →
    outcomes later r' = outcomes later r

section Turns
variable {id : Bytes} {t : Turn}

theorem Turn.asks (ht : t.Of id) : t.program.Asks (AsksOf id) := by
  cases t with
  | update record key offset => exact asksOf_redisUpdater ht offset
  | notify record key offset => exact asksOf_notifier ht offset

theorem turn_frame (ht : t.Of id) (r : Redis) :
    (t.run r).2.redis.now = r.now ∧
      ∀ k, ¬ KeyOf id k → (t.run r).2.redis.live k = r.live k := by
  refine (Turn.asks ht).keeps (I := fun s : Exchange => s.redis.now = r.now ∧
    ∀ k, ¬ KeyOf id k → s.redis.live k = r.live k) ?_ ⟨rfl, fun _ _ => rfl⟩
  intro op s hop hs
  cases op with
  | command c =>
    obtain ⟨hnow, hlive⟩ := exec_frame (hop c rfl) s.redis
    exact ⟨hnow.trans hs.1, fun k hk => (hlive k hk).trans (hs.2 k hk)⟩
  | _ => exact hs

theorem turn_agree (ht : t.Of id) {r r' : Redis} (h : Agree (KeyOf id) r r') :
    (t.run r).1 = (t.run r').1 ∧ (t.run r).2.replies = (t.run r').2.replies ∧
      Agree (KeyOf id) (t.run r).2.redis (t.run r').2.redis := by
  have hrun := (Turn.asks ht).related (h := Exchange.answer) (g := Exchange.answer)
    (R := fun s s' : Exchange => s.replies = s'.replies ∧ Agree (KeyOf id) s.redis s'.redis)
    (s := ⟨r, []⟩) (t := ⟨r', []⟩) ?_ ⟨rfl, h⟩
  · exact ⟨hrun.1, hrun.2.1, hrun.2.2⟩
  · intro op s s' hop hs
    cases op with
    | command c =>
      obtain ⟨hreply, hagree⟩ := exec_agree (hop c rfl) hs.2
      exact ⟨congrArg some hreply, congrArg₂ _ hreply hs.1, hagree⟩
    | _ => exact ⟨rfl, hs⟩

/-- Turns of an order, whatever else Redis holds. -/
theorem outcomes_agree (later : List (Nat × Turn)) (hlater : ∀ l ∈ later, l.2.Of id)
    {r r' : Redis} (h : Agree (KeyOf id) r r') : outcomes later r = outcomes later r' := by
  induction later generalizing r r' with
  | nil => rfl
  | cons l later ih =>
    obtain ⟨elapsed, t⟩ := l
    obtain ⟨hresult, hreplies, hagree⟩ := turn_agree (hlater _ List.mem_cons_self) (h.tick elapsed)
    rw [outcomes, outcomes, hresult, hreplies]
    exact congrArg _ (ih (fun l hl => hlater l (List.mem_cons_of_mem _ hl)) hagree)

end Turns

theorem keyOf_apart {a b : Bytes} (distinct : a ≠ b) (hb : b ≠ a ++ bytes ":lsn")
    (ha : a ≠ b ++ bytes ":lsn") {k : Bytes} (hk : KeyOf b k) : ¬ KeyOf a k := by
  have mail : ∀ {x y status}, Notifier.notifies status = true →
      Notifier.idempotencyKey x status ≠ redisKey y := by
    intro x y status hn
    exact MailInvariant.mailKey_ne_redisKey ⟨x, status, hn, rfl⟩
  intro hka
  rw [keyOf_iff] at hk hka
  rcases hk with rfl | rfl | ⟨status, hn, rfl⟩
  · rcases hka with he | he | ⟨status, hn, he⟩
    · exact distinct (redisKey_inj he).symm
    · exact redisKey_ne_lsnKey hb he
    · exact mail hn he.symm
  · rcases hka with he | he | ⟨status, hn, he⟩
    · exact redisKey_ne_lsnKey ha he.symm
    · exact distinct (lsnKey_inj he).symm
    · exact mail hn (y := b ++ bytes ":lsn") he.symm
  · rcases hka with he | he | ⟨status', hn', he⟩
    · exact mail hn he
    · exact mail hn (y := a ++ bytes ":lsn") he
    · exact distinct (MailInvariant.idempotencyKey_inj hn hn' he).1.symm

/-- An event of one order leaves another as it was, unless the id of one is that of the other
with the suffix of its version key. -/
theorem orders_apart {a b : Bytes} (distinct : a ≠ b) (hb : b ≠ a ++ bytes ":lsn")
    (ha : a ≠ b ++ bytes ":lsn") {t : Turn} (ht : t.Of a) (r : Redis) :
    Unaffected b r (t.run r).2.redis := by
  obtain ⟨hnow, hframe⟩ := turn_frame ht r
  have hlive : ∀ k, KeyOf b k → (t.run r).2.redis.live k = r.live k :=
    fun k hk => hframe k (keyOf_apart distinct hb ha hk)
  exact ⟨hlive _ .value, hlive _ .version, fun status hn => hlive _ (.dedup hn),
    fun later hl => outcomes_agree later hl ⟨hnow, hlive⟩⟩

/-- A row that says no more than whose it is. -/
def sampleRow (id : Bytes) : Json := .obj [(bytes "id", .str id)]

def sampleTurn (id : Bytes) : Turn := .update (sampleRow id) [] 0

theorem sampleTurn_of {id : Bytes} (hid : id ≠ []) : (sampleTurn id).Of id :=
  .inl ⟨sampleRow id, rfl, congrArg Except.ok (if_neg hid)⟩

/-- What Redis has of an order that was stored and whose email went out. -/
def sampleRedis (id : Bytes) : Redis :=
  ((Turn.notify (.obj [(bytes "id", .str id), (bytes "status", .str (bytes "SHIPPED"))]) [] 1).run
    ((sampleTurn id).run (Redis.empty 0)).2.redis).2.redis

theorem orders_apart_once :
    ((sampleRedis (bytes "y")).live (redisKey (bytes "y"))).isSome = true ∧
      (sampleRedis (bytes "y")).get (lsnKey (bytes "y")) = some (bytes "0") ∧
      ((sampleRedis (bytes "y")).live
        (Notifier.idempotencyKey (bytes "y") (bytes "SHIPPED"))).isSome = true ∧
      Unaffected (bytes "y") (sampleRedis (bytes "y"))
        ((sampleTurn (bytes "x")).run (sampleRedis (bytes "y"))).2.redis :=
  ⟨by decide, by decide, by decide, orders_apart (by decide) (by decide) (by decide)
    (sampleTurn_of (by decide)) (sampleRedis (bytes "y"))⟩

/-- The version of one order is the value of the other, whichever of the two is stored. -/
theorem suffix_collides :
    (sampleTurn (bytes "x")).Of (bytes "x") ∧
      ¬ Unaffected (bytes "x:lsn") (Redis.empty 0)
        ((sampleTurn (bytes "x")).run (Redis.empty 0)).2.redis ∧
      (sampleTurn (bytes "x:lsn")).Of (bytes "x:lsn") ∧
      ¬ Unaffected (bytes "x") (Redis.empty 0)
        ((sampleTurn (bytes "x:lsn")).run (Redis.empty 0)).2.redis := by
  refine ⟨sampleTurn_of (by decide), fun h => ?_, sampleTurn_of (by decide), fun h => ?_⟩
  · have hvalue := congrArg Option.isSome h.value
    revert hvalue
    decide
  · have hversion := congrArg Option.isSome h.version
    revert hversion
    decide

end CdcPipeline.Proofs.OrdersApart
