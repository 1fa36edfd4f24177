import CdcPipeline.Proofs.FleetOutline
import CdcPipeline.Proofs.FleetRuns
import CdcPipeline.Proofs.MailInvariant
import CdcPipeline.Proofs.SinkPrograms

namespace CdcPipeline.Proofs.MailOnce

open Library Text Model Notifier KafkaConsumerBase RunOutline FleetOutline SinkPrograms
open MailInvariant

/-- The two consumers that share the Redis. -/
inductive Kind where
  | notifier
  | redisUpdater

variable {ι : Type} [DecidableEq ι]

def member (topic : Bytes) (parse : Bytes → Except Bytes Json) :
    Kind → Consumer RedisOp RedisAns
  | .notifier => Notifier.consumer topic parse
  | .redisUpdater => RedisUpdater.consumer topic parse

def setting (ι : Type) [DecidableEq ι] (delivers : Message → Prop)
    (serdes : Bytes → AvroResult → Prop) : FleetSetting ι RedisOp RedisAns (Mail ι) where
  delivers := delivers
  serdes := serdes
  sinkCall := Mail.call
  sinkEnv := Mail.Env
  sinkCrash i s s' := s' = s.crashed i

def claim (ι : Type) : Claim ι (Mail ι) where
  inv := Invariant
  rely := Rely
  ran _ _ _ := True
  acked _ _ := True
  refl := Rely.refl
  trans _ _ _ _ := Rely.trans
  ranStable _ _ _ _ _ _ := trivial

def Plain : RedisOp → Prop
  | .command c => ∃ script id argv, c = .eval script [RedisUpdater.redisKey id] argv
  | .log e => (∀ c o st n, e ≠ .emailNotificationSent c o st n) ∧
      ∀ o st n, e ≠ .emailNotificationSkippedDuplicate o st n
  | _ => True

theorem log_asks (e : LogEvent) (h : Plain (.log e)) : (RedisProg.log e).Asks Plain :=
  ⟨h, fun _ => trivial⟩

theorem redisUpdater_connects : RedisUpdater.ensureConnected.Asks Plain :=
  ensureConnected_asks (bytes "RedisUpdater") .redisUpdaterConnected trivial trivial ⟨nofun, nofun⟩

theorem notifier_connects : Notifier.ensureConnected.Asks Plain :=
  ensureConnected_asks (bytes "Notifier") .notifierRedisConnected trivial trivial ⟨nofun, nofun⟩

theorem processDelete_asks (record : Json) (key : Bytes) (offset : Nat) :
    (RedisUpdater.processDelete record key offset).Asks Plain := by
  unfold RedisUpdater.processDelete
  cases Record.beforeData record with
  | none => trivial
  | some before =>
    apply Prog.Asks.bind (Prog.asks_ofExcept _ _)
    intro id
    split
    · trivial
    · apply Prog.Asks.bind redisUpdater_connects
      intro _
      refine ⟨⟨.luaDel, id, _, rfl⟩, fun reply => ?_⟩
      apply Prog.Asks.bind (checkReply_asks _ _ reply)
      exact fun _ => log_asks _ ⟨by nofun, by nofun⟩

theorem processUpsert_asks (record row : Json) (key : Bytes) (offset : Nat) :
    (RedisUpdater.processUpsert record row key offset).Asks Plain := by
  apply Prog.Asks.bind (Prog.asks_ofExcept _ _)
  intro id
  split
  · exact log_asks _ ⟨by nofun, by nofun⟩
  · apply Prog.Asks.bind redisUpdater_connects
    intro _
    apply Prog.Asks.bind (Prog.asks_ofExcept _ _)
    intro text
    refine ⟨⟨.luaUpsert, id, _, rfl⟩, fun reply => ?_⟩
    apply Prog.Asks.bind (checkReply_asks _ _ reply)
    intro r
    split
    · exact log_asks _ ⟨by nofun, by nofun⟩
    · apply Prog.Asks.bind (Prog.asks_ofExcept _ _)
      exact fun _ => log_asks _ ⟨by nofun, by nofun⟩

theorem redisUpdater_asks (record : Json) (key : Bytes) (offset : Nat) :
    (RedisUpdater.processRecord record key offset).Asks Plain := by
  unfold RedisUpdater.processRecord
  cases Record.orderData record with
  | none => exact processDelete_asks record key offset
  | some row => exact processUpsert_asks record row key offset

section

variable {delivers : Message → Prop} {serdes : Bytes → AvroResult → Prop}
  {c : ι → Consumer RedisOp RedisAns}

theorem plain_call (i : ι) (op : RedisOp) (hop : Plain op) :
    (outline (setting ι delivers serdes) (claim ι)).Call
      (Fleet.machine (setting ι delivers serdes) c) i (.sink op) (fun _ => True)
      (fun _ _ => True) := by
  apply call_sink (P := fun _ => True) (R := fun _ _ => True)
  intro s a s' hi _ h
  have same : s' = s → Keeps (claim ι) (fun j => j ≠ i) s s' ∧ True := by
    intro hs
    subst hs
    exact ⟨keeps_same hi, trivial⟩
  cases op with
  | contextUsable => exact same h
  | redisConnect => exact same h
  | command c =>
    obtain ⟨script, id, argv, rfl⟩ := hop
    obtain ⟨hinv, hrely⟩ := eval_step hi h
    exact ⟨⟨hinv, fun j _ => hrely j, fun _ h => h⟩, trivial⟩
  | log e =>
    apply same
    cases e with
    | emailNotificationSent c o st n => exact absurd rfl (hop.1 c o st n)
    | emailNotificationSkippedDuplicate o st n => exact absurd rfl (hop.2 o st n)
    | _ => exact h

theorem safe_plain {α : Type} (i : ι) {p : RedisProg α} (hp : p.Asks Plain)
    (w : Fleet (Mail ι)) :
    (outline (setting ι delivers serdes) (claim ι)).safe
      (Fleet.machine (setting ι delivers serdes) c) i (embed p) (fun _ _ => True)
      (fun _ _ => True) w := by
  apply Outline.safe_asks (A := fun op => ∃ o, op = .sink o ∧ Plain o) (P := fun _ => True)
  · exact fun _ _ _ h => h
  · intro op ⟨o, ho, hplain⟩
    subst ho
    exact plain_call i o hplain
  · exact hp.embed fun op hop => ⟨op, rfl, hop⟩
  · trivial

/-- What the client knows once it has its reply: an OK is a win it holds, a nil a loss. -/
def Told (i : ι) (o st : Bytes) (reply : Option Reply) (s : Mail ι) : Prop :=
  (reply = some (.status (bytes "OK")) ∧ Holds i o st s) ∨ (reply = some .nil ∧ Lost o st s) ∨
    reply = none ∨ ∃ str, reply = some (.error str)

theorem claim_call (i : ι) {o st : Bytes} (notified : notifies st = true) :
    (outline (setting ι delivers serdes) (claim ι)).Call
      (Fleet.machine (setting ι delivers serdes) c) i (.sink (.command (claimCommand o st)))
      (fun _ => True) (fun reply w => Told i o st reply w.sink) := by
  apply call_sink (E := setting ι delivers serdes) (o := .command (claimCommand o st))
    (P := fun _ => True) (R := Told i o st)
  intro s reply s' hi _ h
  obtain ⟨hinv, hcases⟩ := claim_cases notified hi h
  rcases hcases with ⟨hreply, rfl⟩ | ⟨hreply, rfl⟩ | ⟨herror, rfl⟩ | ⟨hnone, hrely, -⟩
  · exact ⟨⟨hinv, fun j hj => won_rely hj, fun _ h => h⟩, Or.inl ⟨hreply, won_holds notified⟩⟩
  · exact ⟨⟨hinv, fun j _ => ⟨rfl, List.prefix_rfl, List.prefix_append _ _⟩, fun _ h => h⟩,
      Or.inr (Or.inl ⟨hreply, denied_lost s o st⟩)⟩
  · exact ⟨keeps_same hi, Or.inr (Or.inr (Or.inr herror))⟩
  · exact ⟨⟨hinv, fun j _ => hrely j, fun _ h => h⟩, Or.inr (Or.inr (Or.inl hnone))⟩

theorem sent_call (i : ι) (customer o st : Bytes) (offset : Nat) :
    (outline (setting ι delivers serdes) (claim ι)).Call
      (Fleet.machine (setting ι delivers serdes) c) i
      (.sink (.log (.emailNotificationSent customer o st offset)))
      (fun w => Holds i o st w.sink) (fun _ _ => True) := by
  apply call_sink (E := setting ι delivers serdes)
    (o := .log (.emailNotificationSent customer o st offset)) (P := Holds i o st)
    (R := fun _ _ => True)
  intro s _ s' hi ⟨n, hn, hwon⟩ h
  obtain rfl : s' = s.send i o st := h
  exact ⟨⟨send_invariant hi hn hwon, fun j hj => drop_rely hj rfl rfl rfl, fun _ h => h⟩, trivial⟩

theorem skipped_call (i : ι) {o st : Bytes} (notified : notifies st = true) (offset : Nat) :
    (outline (setting ι delivers serdes) (claim ι)).Call
      (Fleet.machine (setting ι delivers serdes) c) i
      (.sink (.log (.emailNotificationSkippedDuplicate o st offset)))
      (fun w => Lost o st w.sink) (fun _ _ => True) := by
  apply call_sink (E := setting ι delivers serdes)
    (o := .log (.emailNotificationSkippedDuplicate o st offset)) (P := Lost o st)
    (R := fun _ _ => True)
  intro s _ s' hi hlost h
  obtain rfl : s' = s.skip o st := h
  exact ⟨⟨skip_invariant hi notified hlost, fun j _ => ⟨rfl, List.prefix_rfl, List.prefix_rfl⟩,
    fun _ h => h⟩, trivial⟩

theorem safe_notify (i : ι) {o st : Bytes} (notified : notifies st = true) (customer : Bytes)
    (offset : Nat) (w : Fleet (Mail ι)) :
    (outline (setting ι delivers serdes) (claim ι)).safe
      (Fleet.machine (setting ι delivers serdes) c) i (embed (notify o st customer offset))
      (fun _ _ => True) (fun _ _ => True) w := by
  apply SinkPrograms.safe_notify (M := Fleet.machine (setting ι delivers serdes) c)
    (C := fun _ => True) (W := fun w => Holds i o st w.sink) (L := fun w => Lost o st w.sink)
    (R := fun reply w => Told i o st reply w.sink)
  · exact safe_plain i notifier_connects w
  · exact fun _ _ _ h => h
  · exact fun _ _ hr h => h.stable hr
  · exact fun _ _ hr h => h.stable hr
  · exact claim_call i notified
  · intro reply t htold
    rcases htold with hwon | hlost | hnone | herror
    · exact Or.inl hwon
    · exact Or.inr (Or.inl hlost)
    · exact Or.inr (Or.inr ⟨Or.inl hnone, trivial⟩)
    · exact Or.inr (Or.inr ⟨Or.inr herror, trivial⟩)
  · exact sent_call i customer o st offset
  · exact skipped_call i notified offset

theorem safe_notifier (i : ι) (record : Json) (key : Bytes) (offset : Nat) (w : Fleet (Mail ι)) :
    (outline (setting ι delivers serdes) (claim ι)).safe
      (Fleet.machine (setting ι delivers serdes) c) i
      (embed (Notifier.processRecord record key offset)) (fun _ _ => True) (fun _ _ => True) w := by
  rcases processRecord_cases record key offset with ⟨e, h⟩ | ⟨h, -⟩ |
    ⟨o, st, customer, notified, -, h⟩
  · rw [h]
    trivial
  · rw [h]
    trivial
  · rw [h]
    exact safe_notify i notified customer offset w

end

section

variable (delivers : Message → Prop) (serdes : Bytes → AvroResult → Prop) (topic : Bytes)
  (parse : Bytes → Except Bytes Json) (kind : ι → Kind)

theorem settles : Settles (setting ι delivers serdes) (claim ι)
    (fun i => member topic parse (kind i)) where
  process := by
    intro i m doc key w _ _ hm
    apply Outline.safe_mono (Q := fun _ _ => True) (X := fun _ _ => True)
    · exact fun _ _ _ => ⟨hm, trivial⟩
    · exact fun _ _ _ => hm
    · cases hk : kind i with
      | notifier => exact safe_notifier i doc key m.offset w
      | redisUpdater => exact safe_plain i (redisUpdater_asks doc key m.offset) w
  acked := fun _ _ _ _ _ _ => trivial
  env := by
    intro s s' hi he
    obtain ⟨hinv, hrely⟩ := env_step hi he
    exact ⟨hinv, fun i _ => hrely i, fun _ h => h⟩
  crash := by
    intro i s s' hi h
    obtain rfl : s' = s.crashed i := h
    exact ⟨drop_invariant hi i, fun j hj => drop_rely hj rfl rfl rfl, fun _ h => h⟩

end

/-- Emails are sent at most once per order, status and day, and only emails of the
same order and status stand in each other's way. -/
structure AtMostDaily (s : Mail ι) : Prop where
  own : ∀ d ∈ s.sent, ∃ n, d.claim = some n ∧ n < d.after ∧ WonFor s n d.order d.status
  once : s.sent.Pairwise (fun d d' => d.claim ≠ d'.claim)
  spaced : ∀ o st, s.wins.Pairwise (fun w w' =>
    w.key = idempotencyKey o st → w'.key = idempotencyKey o st → w.time + 86400 * 1000 ≤ w'.time)
  suppressed : ∀ k ∈ s.skipped, ∃ l ∈ s.losses, l.key = idempotencyKey k.order k.status ∧
    ∃ w ∈ s.wins, w.key = l.key ∧ w.time ≤ l.time ∧ l.time ≤ w.time + 86400 * 1000 ∧
      ∀ o st, notifies st = true → w.key = idempotencyKey o st → o = k.order ∧ st = k.status

omit [DecidableEq ι] in
theorem atMostDaily_of_invariant {s : Mail ι} (h : Invariant s) : AtMostDaily s where
  own := h.spent.sent
  once := h.spent.once
  spaced := fun o st => h.kept.spaced.imp fun hw hkey hkey' => hw (hkey.trans hkey'.symm)
  suppressed := by
    intro k hk
    obtain ⟨notified, l, hl, hkey⟩ := h.excused k hk
    obtain ⟨w, hw, hwl, hpast, hlive⟩ := h.kept.excused l hl
    refine ⟨l, hl, hkey, w, hw, hwl, hpast, hlive, ?_⟩
    intro o st notified' hst
    exact idempotencyKey_inj notified' notified (hst.symm.trans (hwl.trans hkey))

/-- However many notifiers and updaters share the Redis, whatever they are given, and
whatever becomes of their commands, replies and processes. -/
theorem at_most_daily (delivers : Message → Prop) (serdes : Bytes → AvroResult → Prop)
    (topic : Bytes) (parse : Bytes → Except Bytes Json) (kind : ι → Kind) (now : Nat)
    {cfg : Machine.Config ι (RunOp RedisOp) (RunAns RedisAns) Bytes Node (Fleet (Mail ι))}
    (h : (Fleet.machine (setting ι delivers serdes) (fun i => member topic parse (kind i))).Reach
      ⟨[], Mail.empty now⟩ cfg) : AtMostDaily cfg.shared.sink :=
  atMostDaily_of_invariant
    (inv_of_reach (settles delivers serdes topic parse kind) (empty_invariant now) h).1

def sampleEvent : Debezium.Event := Debezium.sampleUpsert 1 Debezium.one_bound

def sampleMessage : Message := ⟨bytes "orders", 0, 0, none, sampleEvent.payload⟩

def sampleSink : Handler RedisOp RedisAns (Mail Unit)
  | .contextUsable, s => (true, s)
  | .redisConnect, s => (.ok (), s)
  | .command c, s => (some (Redis.exec c s.net.redis).1, (s.execute c).hold ()
      (Redis.exec c s.net.redis).1)
  | .log e, s => ((), s.logged () e)

theorem sampleSink_allowed (op : RedisOp) (s : Mail Unit) :
    Mail.call () op s (sampleSink op s).1 (sampleSink op s).2 := by
  cases op with
  | command c => exact .replied
  | _ => rfl

theorem at_most_daily_once :
    ∃ cfg, (Fleet.machine (setting Unit (fun m => m = sampleMessage) (fun _ _ => True))
        (fun _ => member (bytes "orders") (fun _ => .ok sampleEvent.record) .notifier)).Reach
        ⟨[], Mail.empty 0⟩ cfg ∧
      cfg.shared.sink.sent.length = 1 ∧ AtMostDaily cfg.shared.sink := by
  obtain ⟨cfg, hc, hs, -⟩ := FleetRuns.reach_pass (w := ⟨[], Mail.empty 0⟩)
    (E := setting Unit (fun m => m = sampleMessage) (fun _ _ => True))
    (c := fun _ => member (bytes "orders") (fun _ => .ok sampleEvent.record) .notifier)
    .init rfl (fun _ => .conversionFailed) sampleSink (i := ()) rfl rfl (fun _ => trivial)
    sampleSink_allowed rfl
  refine ⟨cfg, hc, ?_, at_most_daily _ _ _ _ (fun _ => .notifier) 0 hc⟩
  rw [hs]
  rfl

end CdcPipeline.Proofs.MailOnce
