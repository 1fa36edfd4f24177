import CdcPipeline.Proofs.HealthySinks
import CdcPipeline.Proofs.RetryRuns

namespace CdcPipeline.Proofs.TransientFailures

open Library Text Model KafkaConsumerBase Handling RunOutline RetryRuns HealthySinks

/-- A dependency that fails fewer than `max` times in a row and then works. -/
def Transient (max : Int) (works : Nat → Prop) : Prop :=
  ∀ n, ∃ k : Nat, (k : Int) < max ∧ works (n + k)

variable {Sink S : Type} {SinkAns : Sink → Type}

/-- A sink that at this attempt answers as one that works. -/
def SinkUp (E : Surroundings Sink SinkAns S) (works : (op : Sink) → SinkAns op → Prop) (n : Nat) :
    Prop :=
  ∀ op s, works op (E.sink n op s).1

/-- An Avro message of one change of an order, once its schema is there. -/
structure WellFormed (E : Surroundings Sink SinkAns S) (parse : Bytes → Except Bytes Json)
    (data : Bytes) (record : Json) (id : Bytes) (image : Option Json) : Prop where
  payload : E.message.payload = some data
  avro : hasMagicByte data = true
  text : ∃ json, E.serdes data = .text json ∧ parse json = .ok record
  change : Change record id image

/-- The message was processed, and nothing went to the dead letters. -/
structure Undiverted (m : Message) (r : Except Bytes Unit × Handling S) : Prop where
  returned : r.1 = .ok ()
  processed : r.2.processed = [m]
  notDiverted : r.2.deadLetters = []

/-- How many schemas the key of the message asks the registry for. -/
def keyAsks (E : Surroundings Sink SinkAns S) : Nat :=
  match E.message.key with
  | some raw => if hasMagicByte raw && !E.cached (schemaId raw) then 1 else 0
  | none => 0

/-- The schema of the payload is there when the payload is decoded: serdes has it, or the
registry answers the one time it is asked, or the key has brought it. -/
def SchemaAtHand (E : Surroundings Sink SinkAns S) (data : Bytes) : Prop :=
  E.cached (schemaId data) = true ∨ E.reachable (keyAsks E) = true ∨
    (E.reachable 0 = true ∧ ∃ raw, E.message.key = some raw ∧ hasMagicByte raw = true ∧
      schemaId raw = schemaId data)

section Decoding

variable {E : Surroundings Sink SinkAns S} {parse : Bytes → Except Bytes Json}

/-- Serdes knows the schema, or gets it now. -/
def available (E : Surroundings Sink SinkAns S) (l : Lookups) (data : Bytes) : Bool :=
  E.cached (schemaId data) || l.known.contains (schemaId data) || E.reachable l.made

theorem lookUp_available {l : Lookups} {data : Bytes} (h : available E l data = true) :
    (E.lookUp l data).1 = E.serdes data := by
  unfold available at h
  unfold Surroundings.lookUp
  by_cases hc : (E.cached (schemaId data) || l.known.contains (schemaId data)) = true
  · rw [if_pos hc]
  · rw [if_neg hc, if_pos ((Bool.or_eq_true_iff.mp h).resolve_left hc)]

theorem lookUp_unavailable {l : Lookups} {data : Bytes} (h : available E l data = false) :
    (E.lookUp l data).1 = .decodeFailed E.unreachable := by
  simp only [available, Bool.or_eq_false_iff] at h
  obtain ⟨⟨hc, hk⟩, hr⟩ := h
  simp only [Surroundings.lookUp, hc, hk, hr, Bool.or_self, Bool.false_eq_true, if_false]

theorem available_iff (data : Bytes) :
    available E (asked E ⟨0, []⟩ E.message.key).2 data = true ↔ SchemaAtHand E data := by
  unfold SchemaAtHand keyAsks
  cases hk : E.message.key with
  | none => simp [asked, available]
  | some raw =>
    by_cases hm : hasMagicByte raw = true
    · cases hc : E.cached (schemaId raw) with
      | true =>
        -- a key whose schema was there has asked for nothing
        have hl : (asked E ⟨0, []⟩ (some raw)).2 = ⟨0, []⟩ := by
          simp [asked, hm, Surroundings.lookUp, hc]
        simp only [hl, available, hm, hc, List.contains_nil, Bool.or_false, Bool.or_eq_true_iff,
          Bool.not_true, Bool.and_false, Bool.false_eq_true, if_false]
        constructor
        · exact fun h => h.imp_right Or.inl
        · rintro (h | h | ⟨hr, -⟩)
          · exact Or.inl h
          · exact Or.inr h
          · exact Or.inr hr
      | false =>
        cases hr : E.reachable 0 with
        | true =>
          have hl : (asked E ⟨0, []⟩ (some raw)).2 = ⟨1, [schemaId raw]⟩ := by
            simp [asked, hm, Surroundings.lookUp, hc, hr]
          simp only [hl, available, hm, hc, Bool.or_eq_true_iff, List.contains_cons,
            List.contains_nil, Bool.or_false, beq_iff_eq, Bool.not_false, Bool.and_self, if_true,
            true_and, Option.some.injEq]
          constructor
          · rintro ((h | h) | h)
            · exact Or.inl h
            · exact Or.inr (Or.inr ⟨raw, rfl, hm, h.symm⟩)
            · exact Or.inr (Or.inl h)
          · rintro (h | h | ⟨_, rfl, -, h⟩)
            · exact Or.inl (Or.inl h)
            · exact Or.inr h
            · exact Or.inl (Or.inr h.symm)
        | false =>
          have hl : (asked E ⟨0, []⟩ (some raw)).2 = ⟨1, []⟩ := by
            simp [asked, hm, Surroundings.lookUp, hc, hr]
          simp [hl, available, hm, hc]
    · simp [asked, available, hm]

theorem decode_text {data json : Bytes} {record : Json} (hm : hasMagicByte data = true)
    (hp : parse json = .ok record) : decode parse (.text json) (some data) = some record := by
  cases data with
  | nil => contradiction
  | cons b bs => simp only [decode, hm, if_true, decodeAvro, hp, Except.toOption, Option.getD_some]

theorem decode_failed {data : Bytes} (hm : hasMagicByte data = true) (e : Bytes) :
    decode parse (.decodeFailed e) (some data) = none := by
  cases data with
  | nil => rfl
  | cons b bs => simp only [decode, hm, if_true, decodeAvro]

end Decoding

section Pass

variable {E : Surroundings Sink SinkAns S} {c : Consumer Sink SinkAns}
  {works : (op : Sink) → SinkAns op → Prop} {data id : Bytes} {record : Json} {image : Option Json}

/-- The message is in the retry loop, and no attempt was made yet. -/
theorem pass_available (hparse : ∀ s j, c.parse s = .ok j → j.utf8 = true)
    (hw : WellFormed E c.parse data record id image) (h : SchemaAtHand E data) (s : S) :
    ∃ key l, Handling.pass E c s = ((retryLoop c.cfg c.processRecord E.message record key
      c.cfg.maxRetries.toNat 1 c.cfg.initialBackoffMs []).bind
        (settle c.cfg E.message record)).run (answer E) { start s with lookups := l } := by
  have hkey := run_messageKey (E := E) c.parse E.message (start s)
  obtain ⟨key, hk⟩ := keyOf_ok hparse (asked E (start s).lookups E.message.key).1 E.message.key
  rw [hk] at hkey
  have hdoc := run_deserialize (E := E) c.parse E.message.payload
    { start s with lookups := (asked E (start s).lookups E.message.key).2 }
  obtain ⟨json, htext, hp⟩ := hw.text
  have hanswer : (asked E (asked E ⟨0, []⟩ E.message.key).2 E.message.payload).1 = .text json := by
    rw [hw.payload]
    simp only [asked, hw.avro, if_true]
    rw [← htext]
    exact lookUp_available ((available_iff data).mpr h)
  simp only [start] at hdoc
  rw [hanswer, hw.payload, decode_text hw.avro hp] at hdoc
  rw [← hw.payload] at hdoc
  exact ⟨key, _, pass_decoded hkey hdoc⟩

/-- The message is diverted before any attempt. -/
theorem pass_unavailable (hparse : ∀ s j, c.parse s = .ok j → j.utf8 = true)
    (hw : WellFormed E c.parse data record id image) (h : ¬ SchemaAtHand E data) (s : S) :
    ∃ l, Handling.pass E c s =
      (divert c.cfg E.message).run (answer E) { start s with lookups := l } := by
  have hkey := run_messageKey (E := E) c.parse E.message (start s)
  obtain ⟨key, hk⟩ := keyOf_ok hparse (asked E (start s).lookups E.message.key).1 E.message.key
  rw [hk] at hkey
  have hdoc := run_deserialize (E := E) c.parse E.message.payload
    { start s with lookups := (asked E (start s).lookups E.message.key).2 }
  have hanswer : (asked E (asked E ⟨0, []⟩ E.message.key).2 E.message.payload).1 =
      .decodeFailed E.unreachable := by
    rw [hw.payload]
    simp only [asked, hw.avro, if_true]
    apply lookUp_unavailable
    rw [← Bool.not_eq_true]
    exact fun ha => h ((available_iff data).mp ha)
  simp only [start] at hdoc
  rw [hanswer, hw.payload, decode_failed hw.avro] at hdoc
  rw [← hw.payload] at hdoc
  exact ⟨_, pass_undecoded hkey hdoc⟩

theorem divert_unprocessed (cfg : Config) (h : Handling S) :
    ((divert cfg E.message).run (answer E) h).2.processed = h.processed := by
  obtain ⟨res, ds, hr⟩ := run_routeToDlq (E := E) cfg (m := E.message) .null
    (bytes "Payload deserialization failed") h
  simp only [divert, call, Prog.bind_eq, Prog.call_bind, Prog.run_ask, answer_log, logged,
    Prog.run_bind, hr]
  cases res with
  | error what => rfl
  | ok b => rfl

/-- A sink that works at one of the attempts is enough, and a schema that is not there
at the one time it is needed is too much. -/
theorem undiverted_iff (hparse : ∀ s j, c.parse s = .ok j → j.utf8 = true)
    (hw : WellFormed E c.parse data record id image)
    (returns : ∀ key offset, (c.processRecord record key offset).Returns works)
    (hsink : Transient c.cfg.maxRetries (SinkUp E works)) (s : S) :
    Undiverted E.message (Handling.pass E c s) ↔ SchemaAtHand E data := by
  constructor
  · intro hu
    by_contra h
    obtain ⟨l, hpass⟩ := pass_unavailable hparse hw h s
    have hprocessed := hu.processed
    rw [hpass, divert_unprocessed] at hprocessed
    contradiction
  · intro h
    obtain ⟨key, l, hpass⟩ := pass_available hparse hw h s
    obtain ⟨up, hlt, hup⟩ := hsink 0
    rw [Nat.zero_add] at hup
    have hok : ∀ t, ((c.processRecord record key E.message.offset).run (E.sink up) t).1 =
        .ok () := by
      intro t
      obtain ⟨u, hu⟩ := (returns key E.message.offset).run hup t
      exact hu
    obtain ⟨t, k, hloop⟩ := retryLoop_recovers c.cfg hok c.cfg.maxRetries.toNat 1
      c.cfg.initialBackoffMs [] { start s with lookups := l } (Nat.zero_le up)
      (by simp only [start]; omega)
    have hrun : Handling.pass E c s = (.ok (), { start s with
        lookups := l, sink := t, attempts := k, processed := [E.message]
        committed := [.processed] }) := by
      rw [hpass, Prog.run_bind, hloop]
      rfl
    rw [hrun]
    exact ⟨rfl, rfl, rfl⟩

end Pass

/-- Of all patterns in which the sink is away for fewer attempts in a row than are made,
those in which the schema is at hand leave a good event undiverted. -/
def Tolerates (c : Consumer Sink SinkAns) (works : (op : Sink) → SinkAns op → Prop) : Prop :=
  ∀ {S : Type} (E : Surroundings Sink SinkAns S) (data : Bytes) (record : Json) (id : Bytes)
    (image : Option Json) (s : S), WellFormed E c.parse data record id image →
    Transient c.cfg.maxRetries (SinkUp E works) →
    (Undiverted E.message (Handling.pass E c s) ↔ SchemaAtHand E data)

theorem transient_tolerated_iff (cfg : Config) (esUrl : Bytes) (parse : Bytes → Except Bytes Json)
    (hparse : ∀ s j, parse s = .ok j → j.utf8 = true) :
    Tolerates ⟨cfg, parse, EsIndexer.processRecord esUrl⟩ EsWorks ∧
      Tolerates ⟨cfg, parse, RedisUpdater.processRecord⟩ RedisWorks ∧
      Tolerates ⟨cfg, parse, Notifier.processRecord⟩ RedisWorks := by
  refine ⟨?_, ?_, ?_⟩
  · intro S E data record id image s hw hsink
    exact undiverted_iff hparse hw (esIndexer_returns hw.change esUrl) hsink s
  · intro S E data record id image s hw hsink
    exact undiverted_iff hparse hw (redisUpdater_returns hw.change) hsink s
  · intro S E data record id image s hw hsink
    exact undiverted_iff hparse hw (notifier_returns hw.change) hsink s

/-- A Redis that loses the connection under the first attempt. -/
def flaky : Nat → Handler RedisOp RedisAns Unit
  | 0, .command _, s => (none, s)
  | _, op, s => serve op s

/-- An upsert behind five bytes of Avro framing. -/
def sampleSurroundings (sink : Nat → Handler RedisOp RedisAns Unit) (cached : Bytes → Bool)
    (reachable : Nat → Bool) : Surroundings RedisOp RedisAns Unit where
  message := ⟨bytes "orders", 0, 0, none, some [0, 0, 0, 0, 1]⟩
  sink := sink
  asleep := fun _ s => s
  cached := cached
  reachable := reachable
  serdes := fun _ => .text (bytes "{}")
  unreachable := bytes "registry unreachable"
  now := 0
  producer := true
  produced := .ok ()

def sampleRecord : Json := (Debezium.sampleUpsert 1 Debezium.one_bound).record

def sampleParse (_ : Bytes) : Except Bytes Json := .ok sampleRecord

def sampleConfig : Config := .withDefaults (bytes "RedisUpdater") (bytes "orders")

theorem sampleParse_utf8 (s : Bytes) (j : Json) (h : sampleParse s = .ok j) : j.utf8 = true := by
  rw [← Except.ok.inj h]
  decide

theorem sample_wellFormed (sink : Nat → Handler RedisOp RedisAns Unit) (cached : Bytes → Bool)
    (reachable : Nat → Bool) : WellFormed (sampleSurroundings sink cached reachable) sampleParse
      [0, 0, 0, 0, 1] sampleRecord Debezium.sampleId (some Debezium.sampleRow) :=
  ⟨rfl, rfl, ⟨_, rfl, rfl⟩, sample_change 1 Debezium.one_bound⟩

theorem flaky_transient (cached : Bytes → Bool) (reachable : Nat → Bool) :
    Transient 5 (SinkUp (sampleSurroundings flaky cached reachable) RedisWorks) := by
  intro n
  refine ⟨1, by decide, ?_⟩
  intro op s
  cases op with
  | _ => exact serve_works _ s

theorem serve_transient (cached : Bytes → Bool) (reachable : Nat → Bool) :
    Transient 5 (SinkUp (sampleSurroundings (fun _ => serve) cached reachable) RedisWorks) :=
  fun _ => ⟨0, by decide, serve_works⟩

/-- The sink is away for an attempt, the registry for good. -/
def sinkAway : Surroundings RedisOp RedisAns Unit :=
  sampleSurroundings flaky (fun _ => true) (fun _ => false)

/-- With its schema in the cache it is processed, on the second attempt. -/
theorem transient_tolerated_once : Undiverted sinkAway.message
    (Handling.pass sinkAway ⟨sampleConfig, sampleParse, RedisUpdater.processRecord⟩ ()) :=
  ((transient_tolerated_iff sampleConfig [] sampleParse sampleParse_utf8).2.1 sinkAway _ _ _ _ ()
    (sample_wellFormed _ _ _) (flaky_transient _ _)).mpr (Or.inl rfl)

/-- The registry is away for one lookup, the sink never. -/
def registryAway : Surroundings RedisOp RedisAns Unit :=
  sampleSurroundings (fun _ => serve) (fun _ => false) (fun n => n != 0)

theorem schema_outage_diverts :
    WellFormed registryAway sampleParse [0, 0, 0, 0, 1] sampleRecord Debezium.sampleId
      (some Debezium.sampleRow) ∧
    Transient sampleConfig.maxRetries (SinkUp registryAway RedisWorks) ∧
    Transient sampleConfig.maxRetries (fun n => registryAway.reachable n = true) ∧
    ¬ Undiverted registryAway.message
      (Handling.pass registryAway ⟨sampleConfig, sampleParse, RedisUpdater.processRecord⟩ ()) := by
  refine ⟨sample_wellFormed _ _ _, serve_transient _ _, ?_, ?_⟩
  · intro n
    exact ⟨1, by decide, rfl⟩
  · intro h
    exact absurd h.processed (List.cons_ne_nil _ _).symm

end CdcPipeline.Proofs.TransientFailures
