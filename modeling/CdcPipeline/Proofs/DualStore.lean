import CdcPipeline.Library.Replay
import CdcPipeline.Model.Fleet
import CdcPipeline.Proofs.BrokerOutline
import CdcPipeline.Proofs.BrokerRuns
import CdcPipeline.Proofs.SinkPrograms

namespace CdcPipeline.Proofs.DualStore

open Library Text Replay Model KafkaConsumerBase Debezium RunOutline BrokerOutline SinkPrograms

/-- A record of the topic: a change event, or the tombstone that follows a delete. -/
inductive LogEntry where
  | change (key : Option Bytes) (payload : Bytes) (e : Event)
  | tombstone (key : Option Bytes)

namespace LogEntry

def record : LogEntry → Option Bytes × Option Bytes
  | .change key payload _ => (key, some payload)
  | .tombstone key => (key, none)

/-- The order the entry is about. -/
def order : LogEntry → Option Bytes
  | .change _ _ e => some e.id
  | .tombstone _ => none

def offered : LogEntry → Nat × Option Bytes
  | .change _ _ e => RedisCache.offered e
  | .tombstone _ => (0, none)

/-- What the entry leaves of its order. -/
def text (x : LogEntry) : Option Bytes := x.offered.2

end LogEntry

/-- No other partition has events of this order. -/
def Local (entries : Nat → List LogEntry) (p : Nat) (id : Bytes) : Prop :=
  ∀ q, q ≠ p → ∀ x ∈ entries q, x.order ≠ some id

/-- A log of well-formed events: the payloads decode to them, one order's events are in
one partition and its LSNs increase along it. -/
structure WellFormed (entries : Nat → List LogEntry) (parse : Bytes → Except Bytes Json)
    (serdes : Bytes → AvroResult → Prop) : Prop where
  carries : ∀ p key payload e, .change key payload e ∈ entries p →
    ∀ doc, Decodes parse serdes (some payload) (some doc) → e.record = doc
  home : ∀ p (x : LogEntry) id, x ∈ entries p → x.order = some id → Local entries p id
  increasing : ∀ p (i j : Nat) (x y : LogEntry) id, i < j →
    (entries p)[i]? = some x → (entries p)[j]? = some y →
    x.order = some id → y.order = some id → x.offered.1 < y.offered.1

/-- A sink at the end of the log, of which others do nothing and a crash takes nothing. -/
def setting {Sink S : Type} {SinkAns : Sink → Type} (topic : Bytes) (entries : Nat → List LogEntry)
    (serdes : Bytes → AvroResult → Prop)
    (sinkCall : (op : Sink) → S → SinkAns op → S → Prop) : Setting Sink SinkAns S where
  topic := topic
  log p := (entries p).map LogEntry.record
  serdes := serdes
  sinkCall := sinkCall
  sinkEnv _ _ := False
  sinkCrash s s' := s' = s

/-- Only tombstones are diverted to the dead-letter queue. -/
def onlyTombstonesDiverted {Sink S : Type} {SinkAns : Sink → Type} : Conditions SinkAns S where
  call := fun _ op _ _ _ => match op with
    | .log (.unparseablePayloadRoutingDlq m) => m.payload = none
    | .log (.retriesExhaustedRoutingDlq m _) => m.payload = none
    | _ => True
  env := fun _ _ => True
  crash := fun _ _ => True

/-- No record with a payload is reported as diverted. -/
def undiverted {Sink : Type} : RunOp Sink → Bool
  | .log (.unparseablePayloadRoutingDlq m) => m.payload.isNone
  | .log (.retriesExhaustedRoutingDlq m _) => m.payload.isNone
  | _ => true

theorem undiverted_call {Sink S : Type} {SinkAns : Sink → Type} {op : RunOp Sink}
    (h : undiverted op = true) (w : World S) (a : RunAns SinkAns op) (w' : World S) :
    onlyTombstonesDiverted.call () op w a w' := by
  cases op with
  | log e =>
    cases e with
    | unparseablePayloadRoutingDlq m => exact Option.isNone_iff_eq_none.mp h
    | retriesExhaustedRoutingDlq m e => exact Option.isNone_iff_eq_none.mp h
    | _ => trivial
  | _ => trivial

section Following

variable {S : Type} (entries : Nat → List LogEntry) (shows : S → Bytes → Option LogEntry → Prop)

/-- Every order of the partition shows what some prefix of `n` or more entries leaves. -/
def Follows (p n : Nat) (s : S) : Prop :=
  ∀ id, isUuid id = true → Local entries p id →
    ∃ c, Upto LogEntry.order (entries p) id n c ∧ shows s id c

def mark : Stage → Bool → Ledger S → Prop
  | .ran m, _, l => Follows entries shows m.partition (m.offset + 1) l.sink
  | .divert m, _, _ | .queued m, _, _ | .flushed m, _, _ => m.payload = none
  | _, _, _ => True

def claim : Claim S where
  good p n l := Follows entries shows p n l.sink
  mark := mark entries shows
  calm _ := True
  rely l l' := l'.sink = l.sink
  anti := by
    intro p n l h id hid hl
    obtain ⟨c, hc, hs⟩ := h id hid hl
    exact ⟨c, hc.anti, hs⟩
  refl _ := rfl
  trans _ _ _ h h' := h'.trans h
  goodStable _ _ _ _ hr h := by
    simp only [hr]
    exact h
  markStable st _ _ _ hr h := by
    cases st with
    | ran m =>
      simp only [mark, hr]
      exact h
    | _ => exact h
  calmStable _ _ _ _ := trivial

variable {entries shows}

/-- A tombstone leaves every order as it is. -/
theorem Follows.tombstone {p n : Nat} {s : S} {x : LogEntry} (h : Follows entries shows p n s)
    (hx : (entries p)[n]? = some x) (ht : x.order = none) : Follows entries shows p (n + 1) s := by
  intro id hid hl
  obtain ⟨c, hc, hs⟩ := h id hid hl
  refine ⟨c, hc.skip hx ?_, hs⟩
  rw [ht]
  exact fun he => by contradiction

/-- A step that takes one order on and leaves the others as they are takes its partition
on, and nothing back that was followed. -/
theorem Follows.step {p n : Nat} {s s' : S} {x : LogEntry} {id : Bytes}
    (h : Follows entries shows p n s) (hx : (entries p)[n]? = some x) (hid : x.order = some id)
    (hu : isUuid id = true) (home : Local entries p id)
    (others : ∀ id' c, isUuid id' = true → id' ≠ id → shows s id' c → shows s' id' c)
    (advance : ∀ c, Upto LogEntry.order (entries p) id n c → shows s id c →
      ∃ c', Upto LogEntry.order (entries p) id (n + 1) c' ∧ shows s' id c') :
    (∀ q k, (q = p → k ≤ n) → Follows entries shows q k s → Follows entries shows q k s') ∧
      Follows entries shows p (n + 1) s' := by
  have hnext : Follows entries shows p (n + 1) s' := by
    intro id' hu' hl'
    obtain ⟨c, hc, hs⟩ := h id' hu' hl'
    by_cases he : id' = id
    · subst he
      exact advance c hc hs
    · refine ⟨c, hc.skip hx ?_, others id' c hu' he hs⟩
      rw [hid]
      exact fun h => he (Option.some.inj h).symm
  refine ⟨fun q k hk hf => ?_, hnext⟩
  by_cases hq : q = p
  · subst hq
    exact good_of_le (K := claim entries shows) (l := ⟨[], [], [], [], s'⟩)
      (Nat.le_succ_of_le (hk rfl)) hnext
  · intro id' hu' hl'
    obtain ⟨c, hc, hs⟩ := hf id' hu' hl'
    refine ⟨c, hc, others id' c hu' ?_ hs⟩
    intro he
    exact hl' p (Ne.symm hq) x (List.mem_of_getElem? hx) (he ▸ hid)

end Following

section Consumer

variable {Sink S : Type} {SinkAns : Sink → Type} {topic : Bytes} {entries : Nat → List LogEntry}
  {serdes : Bytes → AvroResult → Prop} {sinkCall : (op : Sink) → S → SinkAns op → S → Prop}
  {shows : S → Bytes → Option LogEntry → Prop}

theorem entry_at {m : Message}
    (h : Broker.messageAt (setting topic entries serdes sinkCall) m.partition m.offset = some m) :
    ∃ x, (entries m.partition)[m.offset]? = some x ∧ m.payload = x.record.2 := by
  obtain ⟨r, hr, hm⟩ := Option.map_eq_some_iff.mp h
  simp only [setting, List.getElem?_map, Option.map_eq_some_iff] at hr
  obtain ⟨x, hx, rfl⟩ := hr
  exact ⟨x, hx, by rw [← hm]⟩

theorem tombstone_at {m : Message}
    (h : Broker.messageAt (setting topic entries serdes sinkCall) m.partition m.offset = some m)
    (hm : m.payload = none) {s : S} (hf : Follows entries shows m.partition m.offset s) :
    Follows entries shows m.partition (m.offset + 1) s := by
  obtain ⟨x, hx, hp⟩ := entry_at h
  cases x with
  | tombstone key => exact hf.tombstone hx rfl
  | change key payload e =>
    rw [hm] at hp
    contradiction

/-- What `ProcessRecord` owes for one event: it follows the log one entry further. -/
def Advances (c : Consumer Sink SinkAns) (E : Setting Sink SinkAns S) (K : Claim S)
    (entries : Nat → List LogEntry) : Prop :=
  ∀ m key' payload e key w, (entries m.partition)[m.offset]? = some (.change key' payload e) →
    Held E K m w → (outline E K).safe ((Broker.machine E c).restrict onlyTombstonesDiverted) ()
      (process c.processRecord e.record key m)
      (fun _ t => Held E K m t ∧ K.mark (.ran m) t.producer t.ledger) (fun _ => Held E K m) w

theorem settles {c : Consumer Sink SinkAns} (hw : WellFormed entries c.parse serdes)
    (advances : Advances c (setting topic entries serdes sinkCall) (claim entries shows) entries) :
    Settles (setting topic entries serdes sinkCall) (claim entries shows) onlyTombstonesDiverted
      c where
  env := by
    intro w w' h _
    cases h with
    | sink eff => exact absurd eff id
    | _ => rfl
  crash := by
    intro w s p n _ hs h
    obtain rfl : s = w.ledger.sink := hs
    exact h
  restart _ _ _ := trivial
  record := by
    intro p n l e h
    cases e <;> exact h
  enqueue _ _ _ _ h := h
  process := by
    intro m doc key w hd _ hm _
    obtain ⟨x, hx, hp⟩ := entry_at hm.at_
    rw [hp] at hd
    cases x with
    | tombstone key' =>
      obtain ⟨_, -, hnone⟩ := hd
      contradiction
    | change key' payload e =>
      obtain rfl := hw.carries _ _ _ _ (List.mem_of_getElem? hx) doc hd
      exact Outline.safe_mono (fun _ _ ht => ⟨ht, trivial⟩) (fun _ _ ht => ⟨ht, trivial⟩)
        (advances m key' payload e key w hx hm)
  processed _ _ _ _ _ h := h
  unparseable _ _ _ _ _ h := h
  exhausted _ _ _ _ _ h := h
  noProducer _ _ _ hm ht _ := tombstone_at hm.at_ ht hm.good
  produced _ _ _ _ _ _ _ h _ := h
  refused _ _ _ _ _ _ _ hm ht _ := tombstone_at hm.at_ ht hm.good
  flushed _ _ _ _ h _ := h
  routed topic m e b l hm hg ht := by
    have hf : Follows entries shows m.partition (m.offset + 1) l.sink := tombstone_at hm ht hg
    exact hf

/-- The consumer has handed the whole log to `commitSync`, whether or not the last
commits were lost, or has committed it. -/
def Consumed (entries : Nat → List LogEntry) (w : World S) : Prop :=
  ∀ p, w.handled p = (entries p).length ∨ w.committed p = (entries p).length

/-- At the end of the log every order shows its last entry. -/
theorem shows_last {c : Consumer Sink SinkAns} (hw : WellFormed entries c.parse serdes)
    (advances : Advances c (setting topic entries serdes sinkCall) (claim entries shows) entries)
    {producer : Bool} {s : S} (start : ∀ id, shows s id none)
    {cfg : Machine.Config Unit (RunOp Sink) (RunAns SinkAns) Bytes Node (World S)}
    (h : ((Broker.machine (setting topic entries serdes sinkCall) c).restrict
      onlyTombstonesDiverted).Reach (Broker.fresh producer s) cfg)
    (hend : Consumed entries cfg.shared) {p : Nat} {id : Bytes} (hid : isUuid id = true)
    (home : Local entries p id) :
    shows cfg.shared.ledger.sink id (last LogEntry.order id (entries p)) := by
  have hgood := good_of_reach (settles hw advances)
    (fun q id' _ _ => ⟨none, upto_start, start id'⟩) trivial h p
  have hall : Follows entries shows p (entries p).length cfg.shared.ledger.sink := by
    rcases hend p with he | he
    · exact he ▸ hgood.2
    · exact he ▸ hgood.1
  obtain ⟨x, hx, hs⟩ := hall id hid home
  exact hx.end ▸ hs

end Consumer

def redisShows (s : RedisNet) (id : Bytes) (c : Option LogEntry) : Prop :=
  RedisCache.Shows s.redis id (c.map LogEntry.offered)

def redisSetting (topic : Bytes) (entries : Nat → List LogEntry)
    (serdes : Bytes → AvroResult → Prop) : Setting RedisOp RedisAns RedisNet :=
  setting topic entries serdes (RedisNet.call RedisNet.Prompt)

/-- What a request to Elasticsearch may come to: it is applied, or it fails at the
client, applied or not. A 404 that is not the answer to a delete is a failure. -/
inductive Applies (r : HttpRequest) (docs : Documents) : HttpResponse → Documents → Prop where
  | applied (error text : Bytes) :
      Applies r docs ⟨Documents.status r docs, error, text⟩ (Documents.apply r docs)
  | lost {resp} (failed : EsIndexer.succeeded resp.statusCode = false)
      (notFound : resp.statusCode = 404 → ∃ url body, r = .put url body) :
      Applies r docs resp (Documents.apply r docs)
  | failed {resp} (failed : EsIndexer.succeeded resp.statusCode = false)
      (notFound : resp.statusCode = 404 → ∃ url body, r = .put url body) :
      Applies r docs resp docs

def httpCall : (op : HttpOp) → Documents → HttpAns op → Documents → Prop
  | .request r, docs, resp, docs' => Applies r docs resp docs'
  | .log _, docs, _, docs' => docs' = docs

def esShows (esUrl : Bytes) (docs : Documents) (id : Bytes) (c : Option LogEntry) : Prop :=
  docs (EsIndexer.docUrl esUrl id) = c.bind LogEntry.text

def esSetting (topic : Bytes) (entries : Nat → List LogEntry)
    (serdes : Bytes → AvroResult → Prop) : Setting HttpOp HttpAns Documents :=
  setting topic entries serdes httpCall

section Instances

variable {topic esUrl : Bytes} {entries : Nat → List LogEntry} {serdes : Bytes → AvroResult → Prop}
  {parse : Bytes → Except Bytes Json}

/-- Executing an event's command, the first time or again, takes its order on. -/
theorem redis_step (hw : WellFormed entries parse serdes) {p n : Nat} {key' : Option Bytes}
    {payload : Bytes} {e : Event} (hx : (entries p)[n]? = some (.change key' payload e))
    {s : RedisNet} (h : Follows entries redisShows p n s) :
    (∀ q k, (q = p → k ≤ n) → Follows entries redisShows q k s →
      Follows entries redisShows q k (s.exec (RedisCache.command e))) ∧
      Follows entries redisShows p (n + 1) (s.exec (RedisCache.command e)) := by
  apply h.step hx rfl e.uuid (hw.home p _ e.id (List.mem_of_getElem? hx) rfl)
  · exact fun id c hu hne hs => RedisCache.exec_shows_ne e hu hne hs
  · intro c hc hs
    obtain ⟨c', hc', ho⟩ := hc.offer (f := LogEntry.offered) hx rfl
      (fun i j x y hij hi hj => hw.increasing p i j x y e.id hij hi hj)
    refine ⟨c', hc', ?_⟩
    rw [redisShows, ← ho]
    exact RedisCache.exec_shows e hs

theorem held_inert {K : Claim RedisNet} {c : Consumer RedisOp RedisAns} {m : Message}
    {P : Ledger RedisNet → Prop} (stable : ∀ l l', K.rely l l' → P l → P l') :
    Inert (outline (redisSetting topic entries serdes) K)
      ((Broker.machine (redisSetting topic entries serdes) c).restrict onlyTombstonesDiverted) ()
      (fun w => Held (redisSetting topic entries serdes) K m w ∧ P w.ledger) where
  stable := held_stable stable
  contextUsable := call_same fun _ _ _ h => h
  redisConnect := call_same fun _ _ _ h => h
  log _ := call_same fun _ _ _ h => h

/-- The log has been followed beyond the message in hand. -/
def Past {S : Type} (entries : Nat → List LogEntry) (shows : S → Bytes → Option LogEntry → Prop)
    (m : Message) (l : Ledger S) : Prop :=
  Follows entries shows m.partition (m.offset + 1) l.sink

theorem redis_command (hw : WellFormed entries parse serdes) {m : Message} {key' : Option Bytes}
    {payload : Bytes} {e : Event}
    (hx : (entries m.partition)[m.offset]? = some (.change key' payload e)) :
    (outline (redisSetting topic entries serdes) (claim entries redisShows)).Call
      ((Broker.machine (redisSetting topic entries serdes) (RedisUpdater.consumer topic
        parse)).restrict onlyTombstonesDiverted) () (.sink (.command (RedisCache.command e)))
      (fun w => Held (redisSetting topic entries serdes) (claim entries redisShows) m w ∧ True)
      (fun reply w =>
        Held (redisSetting topic entries serdes) (claim entries redisShows) m w ∧
          (Succeeded reply → Past entries redisShows m w.ledger)) := by
  apply call_sink (E := redisSetting topic entries serdes) (o := .command (RedisCache.command e))
    (P := fun _ => True) (R := fun reply l => Succeeded reply → Past entries redisShows m l)
  intro t reply s ht _ hc _
  have hstep := redis_step hw hx (s := t.ledger.sink) ht.good
  cases hc with
  | replied => exact ⟨hstep.1, fun _ => hstep.2⟩
  | replyLost => exact ⟨hstep.1, fun _ => hstep.2⟩
  | notExecuted => exact ⟨fun _ _ _ hg => hg, fun ⟨r, hr, _⟩ => by contradiction⟩
  | refused str =>
    refine ⟨fun _ _ _ hg => hg, ?_⟩
    intro ⟨r, hr, hne⟩
    exact absurd (Option.some.inj hr).symm (hne str)

theorem redis_advances (hw : WellFormed entries parse serdes) :
    Advances (RedisUpdater.consumer topic parse) (redisSetting topic entries serdes)
      (claim entries redisShows) entries := by
  intro m key' payload e key w hx hm
  have hpast : ∀ l l', (claim entries redisShows).rely l l' → Past entries redisShows m l →
      Past entries redisShows m l' :=
    (claim entries redisShows).goodStable _ _
  have hsafe := safe_redisUpdater (held_inert (P := fun _ => True) (fun _ _ _ h => h))
    (held_inert hpast) e key m.offset (s := w)
    (by
      intro t reply t' hi hp hc
      obtain ⟨hinv, hrely, hheld, hnext⟩ := redis_command hw hx t reply t' hi hp hc
      exact ⟨hinv, hrely, ⟨hheld, trivial⟩, fun hr => ⟨hheld, hnext hr⟩⟩)
    ⟨hm, trivial⟩
  exact Outline.safe_mono (fun _ _ h => h) (fun _ _ h => h.1) hsafe

theorem es_step (hw : WellFormed entries parse serdes) {p n : Nat} {key' : Option Bytes}
    {payload : Bytes} {e : Event} (hx : (entries p)[n]? = some (.change key' payload e))
    {docs : Documents} (h : Follows entries (esShows esUrl) p n docs) :
    (∀ q k, (q = p → k ≤ n) → Follows entries (esShows esUrl) q k docs →
      Follows entries (esShows esUrl) q k
        (Documents.apply (EsDocuments.requestOf esUrl e) docs)) ∧
      Follows entries (esShows esUrl) p (n + 1)
        (Documents.apply (EsDocuments.requestOf esUrl e) docs) := by
  apply h.step hx rfl e.uuid (hw.home p _ e.id (List.mem_of_getElem? hx) rfl)
  · intro id c _ hne hs
    exact (EsDocuments.apply_ne e docs hne).trans hs
  · intro c _ _
    exact ⟨_, upto_write hx rfl, EsDocuments.apply_self e docs⟩

theorem es_request (hw : WellFormed entries parse serdes) {m : Message} {key' : Option Bytes}
    {payload : Bytes} {e : Event}
    (hx : (entries m.partition)[m.offset]? = some (.change key' payload e)) :
    (outline (esSetting topic entries serdes) (claim entries (esShows esUrl))).Call
      ((Broker.machine (esSetting topic entries serdes) (EsIndexer.consumer esUrl topic
        parse)).restrict onlyTombstonesDiverted) ()
      (.sink (.request (EsDocuments.requestOf esUrl e)))
      (fun w => Held (esSetting topic entries serdes) (claim entries (esShows esUrl)) m w ∧ True)
      (fun resp w =>
        Held (esSetting topic entries serdes) (claim entries (esShows esUrl)) m w ∧
          (Accepted e resp → Past entries (esShows esUrl) m w.ledger)) := by
  apply call_sink (E := esSetting topic entries serdes)
    (o := .request (EsDocuments.requestOf esUrl e))
    (P := fun _ => True) (R := fun resp l => Accepted e resp → Past entries (esShows esUrl) m l)
  intro t resp s ht _ hc _
  have hstep := es_step hw hx ht.good
  -- a response that reports a failure is not taken for success, not even a 404
  have refused : EsIndexer.succeeded resp.statusCode = false →
      (resp.statusCode = 404 → ∃ url body, EsDocuments.requestOf esUrl e = .put url body) →
      ¬ Accepted e resp := by
    intro hf hn ha
    rcases ha with ha | ⟨himg, h404⟩
    · rw [hf] at ha
      contradiction
    · obtain ⟨url, body, hput⟩ := hn h404
      simp [EsDocuments.requestOf, Event.text, himg] at hput
  cases hc with
  | applied error text => exact ⟨hstep.1, fun _ => hstep.2⟩
  | lost failed notFound => exact ⟨hstep.1, fun _ => hstep.2⟩
  | failed failed notFound =>
    exact ⟨fun _ _ _ hg => hg, fun ha => absurd ha (refused failed notFound)⟩

theorem es_advances (hw : WellFormed entries parse serdes) :
    Advances (EsIndexer.consumer esUrl topic parse) (esSetting topic entries serdes)
      (claim entries (esShows esUrl)) entries := by
  intro m key' payload e key w hx hm
  have hsafe := safe_esIndexer (held_stable (P := fun _ => True) (fun _ _ _ h => h))
    (held_stable (P := Past entries (esShows esUrl) m)
      (fun l l' hr h => (claim entries (esShows esUrl)).goodStable _ _ l l' hr h))
    (fun _ => call_same fun _ _ _ h => h) esUrl e key m.offset (s := w)
    (by
      intro t resp t' hi hp hc
      obtain ⟨hinv, hrely, hheld, hnext⟩ := es_request hw hx t resp t' hi hp hc
      exact ⟨hinv, hrely, ⟨hheld, trivial⟩, fun hr => ⟨hheld, hnext hr⟩⟩)
    ⟨hm, trivial⟩
  exact Outline.safe_mono (fun _ _ h => h) (fun _ _ h => h.1) hsafe

/-- Two consumers of one well-formed log agree once both have consumed it: an order's
JSON in Redis is its document in Elasticsearch, as its last event left it. -/
theorem stores_agree (hw : WellFormed entries parse serdes) (now : Nat) (producer producer' : Bool)
    {cfg : Machine.Config Unit (RunOp RedisOp) (RunAns RedisAns) Bytes Node (World RedisNet)}
    {cfg' : Machine.Config Unit (RunOp HttpOp) (RunAns HttpAns) Bytes Node (World Documents)}
    (hr : ((Broker.machine (redisSetting topic entries serdes) (RedisUpdater.consumer topic
      parse)).restrict onlyTombstonesDiverted).Reach
      (Broker.fresh producer ⟨Redis.empty now, []⟩) cfg)
    (he : ((Broker.machine (esSetting topic entries serdes) (EsIndexer.consumer esUrl topic
      parse)).restrict onlyTombstonesDiverted).Reach (Broker.fresh producer' Documents.empty) cfg')
    (hrend : Consumed entries cfg.shared) (heend : Consumed entries cfg'.shared)
    {p : Nat} {id : Bytes} (hid : isUuid id = true) (home : Local entries p id) :
    cfg.shared.ledger.sink.redis.get (RedisUpdater.redisKey id) =
        cfg'.shared.ledger.sink (EsIndexer.docUrl esUrl id) ∧
      cfg'.shared.ledger.sink (EsIndexer.docUrl esUrl id) =
        (last LogEntry.order id (entries p)).bind LogEntry.text := by
  have hempty : ∀ id, redisShows ⟨Redis.empty now, []⟩ id none := RedisCache.shows_empty now
  have hnone : ∀ id, esShows esUrl Documents.empty id none := fun _ => rfl
  have hredis := shows_last hw (redis_advances hw) hempty hr hrend hid home
  have hes := shows_last hw (es_advances hw) hnone he heend hid home
  refine ⟨?_, hes⟩
  rw [hes]
  cases hl : last LogEntry.order id (entries p) with
  | none =>
    rw [redisShows, hl] at hredis
    exact hredis.2
  | some x =>
    rw [redisShows, hl] at hredis
    exact hredis.2.2

end Instances

section Alone

variable {l : List LogEntry} {p : Nat}

/-- The log of these entries, all in one partition. -/
def alone (l : List LogEntry) (p : Nat) : List LogEntry := if p = 0 then l else []

/-- The entry of an event that is published as plain JSON. -/
def change (e : Event) : LogEntry := .change none (e.payload.getD []) e

theorem alone_mem {x : LogEntry} (h : x ∈ alone l p) : p = 0 ∧ x ∈ l := by
  unfold alone at h
  split at h
  · rename_i hp
    exact ⟨hp, h⟩
  · contradiction

theorem alone_local (id : Bytes) : Local (alone l) 0 id :=
  fun _ hq _ hx _ => hq (alone_mem hx).1

theorem alone_wellFormed
    (reads : ∀ x ∈ l, x = .tombstone none ∨ ∃ e, e.record.utf8 = true ∧ change e = x)
    (increasing : l.Pairwise fun x y =>
      x.order.isSome = true → y.order.isSome = true → x.offered.1 < y.offered.1) :
    WellFormed (alone l) BrokerRuns.parse BrokerRuns.plain where
  carries := by
    intro p key payload e hx doc hd
    rcases reads _ (alone_mem hx).2 with he | ⟨e', hutf8, he⟩
    · contradiction
    · obtain ⟨rfl, rfl, rfl⟩ := LogEntry.change.inj he
      exact BrokerRuns.decodes_payload hutf8 hd
  home := by
    intro p x id hx _
    obtain ⟨rfl, -⟩ := alone_mem hx
    exact alone_local id
  increasing := by
    intro p i j x y id hij hi hj hxid hyid
    obtain ⟨rfl, -⟩ := alone_mem (List.mem_of_getElem? hi)
    simp only [alone, if_true] at hi hj
    obtain ⟨hilt, rfl⟩ := List.getElem?_eq_some_iff.mp hi
    obtain ⟨hjlt, rfl⟩ := List.getElem?_eq_some_iff.mp hj
    exact List.pairwise_iff_getElem.mp increasing i j hilt hjlt hij (by rw [hxid]; rfl)
      (by rw [hyid]; rfl)

theorem alone_consumed {S : Type} {w : World S}
    (h : w.handled = Function.update (fun _ => 0) 0 l.length) : Consumed (alone l) w := by
  intro p
  refine Or.inl ?_
  rw [h]
  by_cases hp : p = 0
  · subst hp
    rfl
  · rw [Function.update_of_ne hp, alone, if_neg hp]
    rfl

end Alone

theorem three_bound : 3 < 2 ^ 53 := by decide

/-- An order is stored, deleted, and stored again. -/
def sampleLog : List LogEntry :=
  [change (sampleUpsert 1 one_bound), change (sampleDelete 2 two_bound), .tombstone none,
    change (sampleUpsert 3 three_bound)]

theorem sample_wellFormed : WellFormed (alone sampleLog) BrokerRuns.parse BrokerRuns.plain := by
  refine alone_wellFormed ?_ (by decide)
  intro x hx
  simp only [sampleLog, List.mem_cons, List.not_mem_nil, or_false] at hx
  rcases hx with rfl | rfl | rfl | rfl
  · exact .inr ⟨_, by decide, rfl⟩
  · exact .inr ⟨_, by decide, rfl⟩
  · exact .inl rfl
  · exact .inr ⟨_, by decide, rfl⟩

def serveRedis : Handler RedisOp RedisAns RedisNet
  | .contextUsable, s => (true, s)
  | .redisConnect, s => (.ok (), s)
  | .command c, s => (some (Redis.exec c s.redis).1, s.exec c)
  | .log _, s => ((), s)

theorem serveRedis_allowed (op : RedisOp) (s : RedisNet) :
    RedisNet.call RedisNet.Prompt op s (serveRedis op s).1 (serveRedis op s).2 := by
  cases op with
  | command c => exact .replied
  | _ => rfl

theorem serve_allowed (op : HttpOp) (docs : Documents) :
    httpCall op docs (EsDocuments.serve op docs).1 (EsDocuments.serve op docs).2 := by
  cases op with
  | request r => exact .applied [] []
  | log e => rfl

/-- Both consumers come to the end of a log in one partition, one entry a pass. -/
theorem reach_cached {l : List LogEntry} (hdone : (BrokerRuns.passes
      (redisSetting (bytes "orders") (alone l) BrokerRuns.plain)
      (RedisUpdater.consumer (bytes "orders") BrokerRuns.parse) (fun _ => .conversionFailed)
      serveRedis (.ok ()) undiverted l.length (BrokerRuns.started true ⟨Redis.empty 0, []⟩)).map
        (fun w => w.handled 0) = some l.length) :
    ∃ cfg, ((Broker.machine (redisSetting (bytes "orders") (alone l) BrokerRuns.plain)
      (RedisUpdater.consumer (bytes "orders") BrokerRuns.parse)).restrict
        onlyTombstonesDiverted).Reach (Broker.fresh true ⟨Redis.empty 0, []⟩) cfg ∧
      Consumed (alone l) cfg.shared := by
  obtain ⟨cfg, hc, hs⟩ := BrokerRuns.reach_passes
    (C := onlyTombstonesDiverted) true ⟨Redis.empty 0, []⟩ serveRedis (.ok ()) (fun _ => rfl)
    serveRedis_allowed (fun _ h _ _ _ => undiverted_call h _ _ _) l.length l.length
    (by repeat' constructor) hdone
  exact ⟨cfg, hc, alone_consumed hs⟩

theorem reach_indexed {l : List LogEntry} (hdone : (BrokerRuns.passes
      (esSetting (bytes "orders") (alone l) BrokerRuns.plain)
      (EsIndexer.consumer (bytes "http://es") (bytes "orders") BrokerRuns.parse)
      (fun _ => .conversionFailed) EsDocuments.serve (.ok ()) undiverted l.length
      (BrokerRuns.started true Documents.empty)).map (fun w => w.handled 0) = some l.length) :
    ∃ cfg, ((Broker.machine (esSetting (bytes "orders") (alone l) BrokerRuns.plain)
      (EsIndexer.consumer (bytes "http://es") (bytes "orders") BrokerRuns.parse)).restrict
        onlyTombstonesDiverted).Reach (Broker.fresh true Documents.empty) cfg ∧
      Consumed (alone l) cfg.shared := by
  obtain ⟨cfg, hc, hs⟩ := BrokerRuns.reach_passes
    (C := onlyTombstonesDiverted) true Documents.empty EsDocuments.serve (.ok ()) (fun _ => rfl)
    serve_allowed (fun _ h _ _ _ => undiverted_call h _ _ _) l.length l.length
    (by repeat' constructor) hdone
  exact ⟨cfg, hc, alone_consumed hs⟩

theorem stores_agree_once :
    ∃ cfg cfg', ((Broker.machine (redisSetting (bytes "orders") (alone sampleLog) BrokerRuns.plain)
          (RedisUpdater.consumer (bytes "orders") BrokerRuns.parse)).restrict
          onlyTombstonesDiverted).Reach (Broker.fresh true ⟨Redis.empty 0, []⟩) cfg ∧
      ((Broker.machine (esSetting (bytes "orders") (alone sampleLog) BrokerRuns.plain)
          (EsIndexer.consumer (bytes "http://es") (bytes "orders") BrokerRuns.parse)).restrict
          onlyTombstonesDiverted).Reach (Broker.fresh true Documents.empty) cfg' ∧
      cfg.shared.ledger.sink.redis.get (RedisUpdater.redisKey sampleId) =
        cfg'.shared.ledger.sink (EsIndexer.docUrl (bytes "http://es") sampleId) ∧
      cfg'.shared.ledger.sink (EsIndexer.docUrl (bytes "http://es") sampleId) =
        (sampleUpsert 3 three_bound).text := by
  obtain ⟨cfg, hr, hs⟩ := reach_cached (l := sampleLog) (by decide +kernel)
  obtain ⟨cfg', he, hs'⟩ := reach_indexed (l := sampleLog) (by decide +kernel)
  exact ⟨cfg, cfg', hr, he, stores_agree sample_wellFormed 0 true true hr he hs hs' (p := 0)
    (by decide) (alone_local sampleId)⟩

end CdcPipeline.Proofs.DualStore
