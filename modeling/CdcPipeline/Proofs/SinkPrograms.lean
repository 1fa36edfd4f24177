import CdcPipeline.Model.Notifier
import CdcPipeline.Proofs.EsDocuments
import CdcPipeline.Proofs.RedisCache
import CdcPipeline.Proofs.RunOutline

namespace CdcPipeline.Proofs.SinkPrograms

open Library Text Model KafkaConsumerBase Debezium RunOutline

variable {ι σ : Type}

section Redis

variable {O : Outline ι Node σ} {M : RunMachine ι RedisAns σ} {i : ι}

def embed {α : Type} (p : RedisProg α) : RunProg RedisAns α := p.embed .sink (fun _ a => a)

/-- An assertion that only a command could touch. -/
structure Inert (O : Outline ι Node σ) (M : RunMachine ι RedisAns σ) (i : ι) (P : σ → Prop) :
    Prop where
  stable : O.Stable i P
  contextUsable : O.Call M i (.sink .contextUsable) P (fun _ => P)
  redisConnect : O.Call M i (.sink .redisConnect) P (fun _ => P)
  log : ∀ e, O.Call M i (.sink (.log e)) P (fun _ => P)

theorem safe_log {P : σ → Prop} (h : Inert O M i P) {X : Bytes → σ → Prop} (line : LogEvent)
    {s : σ} (hs : P s) : O.safe M i (embed (RedisProg.log line)) (fun _ => P) X s := by
  apply Outline.safe_ask h.stable (h.log line) hs
  exact fun _ t ht => ht

theorem safe_ensureConnected {P : σ → Prop} (h : Inert O M i P) (name : Bytes) (line : LogEvent)
    {s : σ} (hs : P s) :
    O.safe M i (embed (RedisProg.ensureConnected name line)) (fun _ => P) (fun _ => P) s := by
  apply Outline.safe_ask h.stable h.contextUsable hs
  intro usable t ht
  cases usable with
  | true => exact ht
  | false =>
    apply Outline.safe_ask h.stable h.redisConnect ht
    intro r u hu
    cases r with
    | ok _ => exact safe_log h line hu
    | error e => exact hu

/-- A reply that `checkReply` lets through. -/
def Succeeded (reply : Option Reply) : Prop := ∃ r, reply = some r ∧ ∀ str, r ≠ .error str

theorem checkReply_cases (what : Bytes) (reply : Option Reply) :
    (∃ r, (reply = some r ∧ ∀ str, r ≠ .error str) ∧ RedisProg.checkReply what reply = .ret r) ∨
      ∃ e, RedisProg.checkReply what reply = .raise e := by
  cases reply with
  | none => exact Or.inr ⟨_, rfl⟩
  | some r =>
    cases r with
    | error str => exact Or.inr ⟨_, rfl⟩
    | nil => exact Or.inl ⟨_, ⟨rfl, fun _ h => by contradiction⟩, rfl⟩
    | integer n => exact Or.inl ⟨_, ⟨rfl, fun _ h => by contradiction⟩, rfl⟩
    | status t => exact Or.inl ⟨_, ⟨rfl, fun _ h => by contradiction⟩, rfl⟩
    | string t => exact Or.inl ⟨_, ⟨rfl, fun _ h => by contradiction⟩, rfl⟩

theorem checkReply_asks (P : RedisOp → Prop) (what : Bytes) (reply : Option Reply) :
    (RedisProg.checkReply what reply).Asks P := by
  rcases checkReply_cases what reply with ⟨r, -, h⟩ | ⟨e, h⟩
  · rw [h]
    trivial
  · rw [h]
    trivial

theorem ensureConnected_asks {P : RedisOp → Prop} (name : Bytes) (line : LogEvent)
    (usable : P .contextUsable) (connect : P .redisConnect) (log : P (.log line)) :
    (RedisProg.ensureConnected name line).Asks P := by
  refine ⟨usable, fun b => ?_⟩
  cases b with
  | true => trivial
  | false =>
    refine ⟨connect, fun r => ?_⟩
    cases r with
    | ok _ => exact ⟨log, fun _ => trivial⟩
    | error e => trivial

/-- A command and what follows it: the reply either throws, or says that it was executed. -/
theorem safe_command {α : Type} {B P : σ → Prop} (hB : Inert O M i B) {c : Command}
    (hcommand : O.Call M i (.sink (.command c)) B
      (fun reply t => B t ∧ (Succeeded reply → P t)))
    (what : Bytes) {k : Reply → RedisProg α} {Q : α → σ → Prop} {s : σ} (hs : B s)
    (hk : ∀ reply t, B t → P t → O.safe M i (embed (k reply)) Q (fun _ => B) t) :
    O.safe M i (embed ((RedisProg.redisCommand c).bind
      (fun reply => (RedisProg.checkReply what reply).bind k))) Q (fun _ => B) s := by
  simp only [embed, RedisProg.redisCommand, Prog.call_bind, Prog.embed_ask]
  apply Outline.safe_ask (o := RunOp.sink (RedisOp.command c)) hB.stable hcommand hs
  intro reply t ⟨hb, hp⟩
  rcases checkReply_cases what reply with ⟨r, hr, h⟩ | ⟨e, h⟩
  · simp only [h, Prog.ret_bind]
    exact hk r t hb (hp ⟨r, hr⟩)
  · simp only [h, Prog.raise_bind]
    exact hb

/-- RedisUpdater over a well-formed event: when it returns, its command was executed. -/
theorem safe_redisUpdater {B P : σ → Prop} (hB : Inert O M i B) (hP : Inert O M i P) (e : Event)
    (key : Bytes) (offset : Nat)
    (hcommand : O.Call M i (.sink (.command (RedisCache.command e))) B
      (fun reply t => B t ∧ (Succeeded reply → P t))) {s : σ} (hs : B s) :
    O.safe M i (embed (RedisUpdater.processRecord e.record key offset)) (fun _ => P)
      (fun _ => B) s := by
  rw [RedisCache.processRecord_event, embed, Prog.embed_bind]
  apply Outline.safe_seq (safe_ensureConnected hB _ _ hs)
  intro _ t ht
  unfold RedisCache.conclude
  cases e.image with
  | none =>
    apply safe_command hB hcommand _ ht
    exact fun _ u _ hu => safe_log hP _ hu
  | some row =>
    apply safe_command hB hcommand _ ht
    intro reply u hb hu
    split
    · exact safe_log hP _ hu
    · cases Record.stringValue row (bytes "status") (bytes "UNKNOWN") with
      | error what => exact hb
      | ok status => exact safe_log hP _ hu

/-- What the reply to a claim says: it was won, or lost, or there is no telling. -/
def Replied (W L B : σ → Prop) (reply : Option Reply) (s : σ) : Prop :=
  (reply = some (.status (bytes "OK")) ∧ W s) ∨ (reply = some .nil ∧ L s) ∨
    ((reply = none ∨ ∃ str, reply = some (.error str)) ∧ B s)

/-- The notifier's claim: when it returns, one of its two lines has been logged. -/
theorem safe_notify {C W L B Q : σ → Prop} {R : Option Reply → σ → Prop} {o st customer : Bytes}
    {offset : Nat} {s : σ}
    (connect : O.safe M i (embed Notifier.ensureConnected) (fun _ => C) (fun _ => B) s)
    (hC : O.Stable i C) (hW : O.Stable i W) (hL : O.Stable i L)
    (claim : O.Call M i (.sink (.command (Notifier.claimCommand o st))) C R)
    (replied : ∀ reply t, R reply t → Replied W L B reply t)
    (sent : O.Call M i (.sink (.log (.emailNotificationSent customer o st offset))) W (fun _ => Q))
    (skipped : O.Call M i (.sink (.log (.emailNotificationSkippedDuplicate o st offset))) L
      (fun _ => Q)) :
    O.safe M i (embed (Notifier.notify o st customer offset)) (fun _ => Q) (fun _ => B) s := by
  rw [Notifier.notify, Prog.bind_eq, embed, Prog.embed_bind]
  apply Outline.safe_seq connect
  intro _ t ht
  simp only [Prog.bind_eq, RedisProg.redisCommand, Prog.call_bind, Prog.embed_ask]
  apply Outline.safe_ask (o := RunOp.sink (RedisOp.command (Notifier.claimCommand o st)))
    hC claim ht
  intro reply u hu
  rcases replied reply u hu with ⟨rfl, hw⟩ | ⟨rfl, hl⟩ | ⟨rfl | ⟨str, rfl⟩, hb⟩
  · apply Outline.safe_ask hW sent hw
    exact fun _ _ hv => hv
  · apply Outline.safe_ask hL skipped hl
    exact fun _ _ hv => hv
  · exact hb
  · exact hb

end Redis

section Http

variable {O : Outline ι Node σ} {M : RunMachine ι HttpAns σ} {i : ι}

/-- A response that `ProcessRecord` does not throw on. -/
def Accepted (e : Event) (r : HttpResponse) : Prop :=
  EsIndexer.succeeded r.statusCode = true ∨ (e.image = none ∧ r.statusCode = 404)

/-- ESIndexer over a well-formed event: when it returns, its request was accepted. -/
theorem safe_esIndexer {B P : σ → Prop} (hB : O.Stable i B) (hP : O.Stable i P)
    (hlog : ∀ line, O.Call M i (.sink (.log line)) P (fun _ => P)) (esUrl : Bytes) (e : Event)
    (key : Bytes) (offset : Nat)
    (hrequest : O.Call M i (.sink (.request (EsDocuments.requestOf esUrl e))) B
      (fun r t => B t ∧ (Accepted e r → P t))) {s : σ} (hs : B s) :
    O.safe M i ((EsIndexer.processRecord esUrl e.record key offset).embed .sink (fun _ a => a))
      (fun _ => P) (fun _ => B) s := by
  rw [EsDocuments.processRecord_event]
  simp only [EsIndexer.request, Prog.call_bind, Prog.embed_ask]
  apply Outline.safe_ask hB hrequest hs
  rintro r t ⟨hb, hp⟩
  rcases EsDocuments.conclude_cases e offset r with ⟨line, ha, h⟩ | ⟨what, h⟩ | ⟨himg, h404, h⟩
  · rw [h]
    apply Outline.safe_ask hP (hlog line) (hp (Or.inl ha))
    exact fun _ u hu => hu
  · rw [h]
    exact hb
  · rw [h]
    exact hp (Or.inr ⟨himg, h404⟩)

end Http

end CdcPipeline.Proofs.SinkPrograms
