import CdcPipeline.Proofs.AttemptOutline
import CdcPipeline.Proofs.BrokerOutline
import CdcPipeline.Proofs.BrokerRuns
import CdcPipeline.Proofs.HealthySinks

namespace CdcPipeline.Proofs.NoQuarantine

open Library Text Model KafkaConsumerBase RunOutline AttemptOutline HealthySinks

/-- One change of an order with the payload that carries it. -/
structure Written where
  key : Option Bytes
  payload : Bytes
  record : Json
  id : Bytes
  image : Option Json
  change : Change record id image

/-- What the connector writes for a change: the event and, behind a delete, a tombstone. -/
def Written.records (x : Written) : List (Option Bytes × Option Bytes) :=
  match x.image with
  | some _ => [(x.key, some x.payload)]
  | none => [(x.key, some x.payload), (x.key, none)]

variable {Sink S : Type} {SinkAns : Sink → Type}

/-- A consumer whose log holds these changes, and whose registry and sink work. -/
structure Healthy (E : Setting Sink SinkAns S) (parse : Bytes → Except Bytes Json)
    (works : (op : Sink) → SinkAns op → Prop) (changes : Nat → List Written) : Prop where
  log : ∀ p, E.log p = (changes p).flatMap Written.records
  registry : ∀ p, ∀ x ∈ changes p, ∀ doc, Decodes parse E.serdes (some x.payload) doc →
    doc = some x.record
  sink : ∀ op s a s', E.sinkCall op s a s' → works op a

/-- Nothing was ever handed to the producer. -/
def Unpublished (w : World S) : Prop := w.ledger.queue = [] ∧ w.ledger.acked = []

/-- No tombstone is consumed. -/
def noTombstone : BrokerOutline.Conditions SinkAns S where
  call := fun _ op _ a _ => match op, a with
    | .consume _, .message m => m.payload ≠ none
    | _, _ => True
  env := fun _ _ => True
  crash := fun _ _ => True

/-- A message that carries one of the changes. -/
def Carries (changes : Nat → List Written) (m : Message) : Prop :=
  ∃ p, ∃ x ∈ changes p, m.payload = some x.payload

/-- Every message carries a change and its first attempt is its last, so that nothing is
ever on its way to the dead letters. -/
def assertion (changes : Nat → List Written) : Phase → World S → Prop
  | .fetched m, _ => Carries changes m
  | .trying m n, _ => n = 0 ∧ Carries changes m
  | .halted _, w => w.running = false
  | .divert _ _, _ => False
  | _, _ => True

def outline (changes : Nat → List Written) : Outline Unit Node (World S) where
  inv := Unpublished
  rely := fun _ w w' => w.running = false → w'.running = false
  node := fun _ n => assertion changes (phaseOf n)

variable {E : Setting Sink SinkAns S} {c : Consumer Sink SinkAns}
  {works : (op : Sink) → SinkAns op → Prop} {changes : Nat → List Written}

theorem stable (ph : Phase) : (outline changes).Stable () (assertion (S := S) changes ph) := by
  intro w w' hr h
  cases ph with
  | halted m => exact hr h
  | _ => exact h

theorem record_unpublished (l : Ledger S) (e : LogEvent) :
    (Broker.record l e).queue = l.queue ∧ (Broker.record l e).acked = l.acked := by
  cases e with
  | _ => exact ⟨rfl, rfl⟩

/-- Any call but `produce`. -/
def Unproducing : RunOp Sink → Prop
  | .produce .. => False
  | _ => True

/-- Only `produce` puts something into the producer's queue. -/
theorem call_unpublished {op : RunOp Sink} (hop : Unproducing op)
    {w w' : World S} {a : RunAns SinkAns op} (h : Broker.call E op w a w') (hw : Unpublished w) :
    Unpublished w' := by
  have same : w' = w → Unpublished w' := fun he => he ▸ hw
  cases op with
  | storeRunning b =>
    obtain rfl := h
    exact hw
  | loadRunning => exact same h.1
  | consume n =>
    obtain ⟨revoked, h⟩ := h
    cases a with
    | message m =>
      obtain rfl := h.2
      exact hw
    | _ =>
      obtain rfl := h
      exact hw
  | serdesDeserialize data => exact same h.1
  | sink op =>
    obtain ⟨s, -, rfl⟩ := h
    exact hw
  | hasProducer => exact same h.1
  | produce m t b k => exact absurd hop id
  | commitSync m site =>
    rcases h with rfl | rfl
    · exact hw
    · exact hw
  | log e =>
    obtain rfl := h
    obtain ⟨hq, ha⟩ := record_unpublished w.ledger e
    exact ⟨hq.trans hw.1, ha.trans hw.2⟩
  | _ => exact same h

/-- The rule for a call that is no `produce`. -/
theorem call_quiet {o : RunOp Sink} (ho : Unproducing o)
    {P : World S → Prop} {R : RunAns SinkAns o → World S → Prop}
    (h : ∀ w a w', P w → ((Broker.machine E c).restrict noTombstone).call () o w a w' → R a w') :
    (outline changes).Call ((Broker.machine E c).restrict noTombstone) () o P R := by
  intro w a w' hi hP hc
  exact ⟨call_unpublished ho hc.1 hi, fun j hj => absurd (Subsingleton.elim j ()) hj,
    h w a w' hP hc⟩

theorem call_absurd (op : RunOp Sink) {R : RunAns SinkAns op → World S → Prop} :
    (outline changes).Call ((Broker.machine E c).restrict noTombstone) () op (fun _ => False) R :=
  fun _ _ _ _ hf _ => absurd hf id

variable {parse : Bytes → Except Bytes Json}

/-- A message of the log that is no tombstone carries a change. -/
theorem carries_of_consumed (hh : Healthy E parse works changes) {w w' : World S} {m : Message}
    (h : Broker.Consumes E w (.message m) w') (hm : m.payload ≠ none) : Carries changes m := by
  obtain ⟨revoked, hat, -⟩ := h
  obtain ⟨r, hr, hm'⟩ := Option.map_eq_some_iff.mp hat
  have hpayload : m.payload = r.2 := by rw [← hm']
  have hmem := List.mem_of_getElem? hr
  rw [hh.log] at hmem
  obtain ⟨x, hx, hrecord⟩ := List.mem_flatMap.mp hmem
  refine ⟨_, x, hx, ?_⟩
  rw [hpayload] at hm ⊢
  unfold Written.records at hrecord
  split at hrecord
  · rw [List.mem_singleton.mp hrecord]
  · simp only [List.mem_cons, List.not_mem_nil, or_false] at hrecord
    rcases hrecord with rfl | rfl
    · rfl
    · exact absurd rfl hm

theorem counted (hh : Healthy E c.parse works changes) (hmax : 0 < c.cfg.maxRetries)
    (returns : ∀ p, ∀ x ∈ changes p, ∀ key offset,
      (c.processRecord x.record key offset).Returns works) :
    Counted (outline changes) ((Broker.machine E c).restrict noTombstone) () c E.serdes
      (assertion changes) where
  quiet := {
    refl := fun _ _ h => h
    still := fun op w a w' hop h => BrokerOutline.call_still op w a w'
      (Annotated.still_of_muted hop) h.1
    registry := fun _ _ _ _ h => h.1.2 }
  stable := stable
  start := call_quiet (o := .storeRunning true) trivial fun _ _ _ _ _ => trivial
  load := fun _ b _ _ _ _ => by cases b <;> trivial
  consume := by
    refine call_quiet (o := .consume 1000) trivial fun w d w' _ h => ?_
    cases d with
    | message m => exact carries_of_consumed hh h.1 h.2
    | _ => trivial
  decoded := fun _ _ _ _ hf => ⟨rfl, hf⟩
  unparseable := by
    rintro m hd w a w' - ⟨p, x, hx, hm⟩ -
    rw [hm] at hd
    exact absurd (hh.registry p x hx none hd) nofun
  process := by
    rintro m n doc key w - hd - ⟨-, p, x, hx, hm⟩
    rw [hm] at hd
    obtain rfl := Option.some.inj (hh.registry p x hx _ hd)
    have answered : ∀ op, (outline changes).Call ((Broker.machine E c).restrict noTombstone) ()
        (.sink op) (fun _ => True) (fun a _ => works op a ∧ True) := by
      refine fun op => call_quiet (o := .sink op) trivial ?_
      rintro w a w' - ⟨⟨s, hs, -⟩, -⟩
      exact ⟨hh.sink op _ a s hs, trivial⟩
    apply Outline.safe_mono (fun _ _ _ => trivial) (fun _ _ hf => absurd hf id)
    exact Outline.safe_returns (fun _ _ _ h => h) answered (returns p x hx key m.offset) trivial
  stopped := fun _ _ _ _ _ _ _ h => h.1.2.symm
  halted := fun _ _ b _ _ hh h => ⟨h.1.2.trans hh, trivial⟩
  left := fun _ _ _ _ _ _ => trivial
  processed := fun m => call_quiet (o := .log (.recordProcessed m)) trivial fun _ _ _ _ _ => trivial
  exhausted := by
    rintro m e w a w' - ⟨hzero, -⟩ -
    omega
  produce := fun m site topic body key => call_absurd _
  routed := fun topic m e site => call_absurd _
  committed := fun m => call_quiet (o := .commitSync m .processed) trivial fun _ _ _ _ _ => trivial
  dropped := fun m site => call_absurd _

theorem valid (hc : Counted (outline changes) ((Broker.machine E c).restrict noTombstone) () c
      E.serdes (assertion changes)) :
    (outline changes).Valid ((Broker.machine E c).restrict noTombstone) where
  refl := fun _ _ h => h
  trans := fun _ _ _ _ h h' hs => h' (h hs)
  stable := fun _ n => stable (phaseOf n)
  code := fun _ n w h => hc.safe_run n h
  env := by
    rintro w w' hi ⟨he, -⟩
    cases he with
    | stop => exact ⟨hi, fun _ _ => rfl⟩
    | deliver hq => exact absurd (hi.1 ▸ hq) List.not_mem_nil
    | drop hq => exact absurd (hi.1 ▸ hq) List.not_mem_nil
    | sink he => exact ⟨hi, fun _ h => h⟩
  crash := by
    rintro i w w' hi ⟨⟨producer, s, -, rfl⟩, -⟩
    exact ⟨⟨rfl, hi.2⟩, fun j hj => absurd (Subsingleton.elim j i) hj, trivial⟩

/-- A consumer whose `ProcessRecord` returns on every change, as long as its sink works. -/
theorem unpublished (hh : Healthy E c.parse works changes) (hmax : 0 < c.cfg.maxRetries)
    (returns : ∀ p, ∀ x ∈ changes p, ∀ key offset,
      (c.processRecord x.record key offset).Returns works) (producer : Bool) (s : S)
    {cfg : Machine.Config Unit (RunOp Sink) (RunAns SinkAns) Bytes Node (World S)}
    (h : ((Broker.machine E c).restrict noTombstone).Reach (Broker.fresh producer s) cfg) :
    Unpublished cfg.shared :=
  ((valid (counted hh hmax returns)).reach ⟨rfl, rfl⟩ (fun _ => trivial) h).1

/-- No reachable state of a run over such a log has anything published, whatever answers
a sink that works gives. -/
def NothingPublished (c : Consumer Sink SinkAns) (works : (op : Sink) → SinkAns op → Prop)
    (changes : Nat → List Written) (C : BrokerOutline.Conditions SinkAns S) : Prop :=
  ∀ E : Setting Sink SinkAns S, Healthy E c.parse works changes → ∀ producer s cfg,
    ((Broker.machine E c).restrict C).Reach (Broker.fresh producer s) cfg → Unpublished cfg.shared

/-- None of the three quarantines anything in a run that meets no tombstone. -/
theorem nothing_published (changes : Nat → List Written) (esUrl topic : Bytes)
    (parse : Bytes → Except Bytes Json) (S T : Type) :
    NothingPublished (S := T) (EsIndexer.consumer esUrl topic parse) EsWorks changes noTombstone ∧
      NothingPublished (S := S) (RedisUpdater.consumer topic parse) RedisWorks changes noTombstone ∧
      NothingPublished (S := S) (Notifier.consumer topic parse) RedisWorks changes noTombstone := by
  refine ⟨?_, ?_, ?_⟩
  · intro E hh producer s cfg h
    exact unpublished hh (by decide : (0 : Int) < 5)
      (fun _ x _ => esIndexer_returns x.change esUrl) producer s h
  · intro E hh producer s cfg h
    exact unpublished hh (by decide : (0 : Int) < 5)
      (fun _ x _ => redisUpdater_returns x.change) producer s h
  · intro E hh producer s cfg h
    exact unpublished hh (by decide : (0 : Int) < 5)
      (fun _ x _ => notifier_returns x.change) producer s h

def sampleUpsert : Written where
  key := none
  payload := bytes "{}"
  record := (Debezium.sampleUpsert 1 Debezium.one_bound).record
  id := Debezium.sampleId
  image := some Debezium.sampleRow
  change := sample_change 1 Debezium.one_bound

def sampleDelete : Written where
  key := none
  payload := bytes "{}"
  record := (Debezium.sampleDelete 1 Debezium.one_bound).record
  id := Debezium.sampleId
  image := none
  change := ⟨.delete Debezium.sampleRow_row .plain rfl rfl rfl rfl rfl, by decide, nofun⟩

def sampleLog (x : Written) (p : Nat) : List Written := if p = 0 then [x] else []

def sampleSetting (x : Written) : Setting RedisOp RedisAns Unit where
  topic := bytes "orders"
  log p := (sampleLog x p).flatMap Written.records
  serdes _ _ := True
  sinkCall op _ a _ := RedisWorks op a
  sinkEnv _ _ := False
  sinkCrash _ _ := True

def sampleConsumer (x : Written) : Consumer RedisOp RedisAns :=
  RedisUpdater.consumer (bytes "orders") (fun _ => .ok x.record)

theorem sample_healthy {x : Written} (h : x.payload = bytes "{}") :
    Healthy (sampleSetting x) (sampleConsumer x).parse RedisWorks (sampleLog x) where
  log _ := rfl
  registry := by
    rintro p y hy doc ⟨avro, -, hd⟩
    have hy : y = x := by
      unfold sampleLog at hy
      split at hy
      · exact List.mem_singleton.mp hy
      · contradiction
    subst hy
    rw [h] at hd
    exact hd.symm
  sink _ _ _ _ h := h

/-- Answers for a run over the log: nothing is encoded with a schema, and every record is
taken by the producer. -/
def answer (x : Written) : Handler (RunOp RedisOp) (RunAns RedisAns) (World Unit) :=
  BrokerRuns.serve (sampleSetting x) (fun _ => .conversionFailed) serve (.ok ())

theorem answer_allowed (x : Written) {α : Type} (p : RunProg RedisAns α) (w : World Unit) :
    p.Along (answer x) (Broker.call (sampleSetting x)) w :=
  Prog.along_of_forall (BrokerRuns.serve_allowed (fun _ => trivial) serve_works) p w

/-- An upsert is consumed and nothing is published. -/
theorem nothing_published_once : ∃ cfg,
    ((Broker.machine (sampleSetting sampleUpsert) (sampleConsumer sampleUpsert)).restrict
      noTombstone).Reach (Broker.fresh true ()) cfg ∧
    cfg.shared.committed 0 = 1 ∧ Unpublished cfg.shared := by
  obtain ⟨cfg, hc, hs⟩ := BrokerRuns.reach_pass (E := sampleSetting sampleUpsert)
    (c := sampleConsumer sampleUpsert) (C := noTombstone) true ()
    (fun _ => .conversionFailed) serve (.ok ()) (fun _ => trivial) serve_works
    (by repeat' constructor) ⟨trivial, Option.some_ne_none _, by repeat' constructor⟩ rfl
  refine ⟨cfg, hc, by rw [hs]; rfl, ?_⟩
  exact (nothing_published (sampleLog sampleUpsert) [] (bytes "orders")
    (fun _ => .ok sampleUpsert.record) Unit Unit).2.1 (sampleSetting sampleUpsert)
    (sample_healthy rfl) true () cfg hc

/-- A delete is consumed and then its tombstone, which is published. -/
theorem tombstone_published : ∃ cfg,
    Healthy (sampleSetting sampleDelete) (sampleConsumer sampleDelete).parse RedisWorks
      (sampleLog sampleDelete) ∧
    (Broker.machine (sampleSetting sampleDelete) (sampleConsumer sampleDelete)).Reach
      (Broker.fresh true ()) cfg ∧
    ¬ Unpublished cfg.shared := by
  have h₁ := (.init : (Broker.machine (sampleSetting sampleDelete)
    (sampleConsumer sampleDelete)).Reach (Broker.fresh true ()) _)
  have h₂ := h₁.node (answer sampleDelete) (i := ()) (n := .start) (m := .head) rfl
    (answer_allowed _ _ _) rfl
  have h₃ := h₂.node (answer sampleDelete) (i := ()) (n := .head) (m := .head) rfl
    (answer_allowed _ _ _) rfl
  have h₄ := h₃.node (answer sampleDelete) (i := ()) (n := .head) (m := .head) rfl
    (answer_allowed _ _ _) rfl
  exact ⟨_, sample_healthy rfl, h₄, fun h => absurd h.1 (List.cons_ne_nil _ _)⟩

end CdcPipeline.Proofs.NoQuarantine
