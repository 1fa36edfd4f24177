import CdcPipeline.Proofs.RecordEffect
import CdcPipeline.Proofs.RedisConvergence
import CdcPipeline.Proofs.RetryRuns

namespace CdcPipeline.Proofs.RejectedRecords

open Library Text Model RedisUpdater RedisCache KafkaConsumerBase ValueGuard RecordEffect RetryRuns

/-- A call that throws, with Redis answering, has left Redis as it was. -/
def Untouched (record : Json) (key : Bytes) (offset : Nat) (r : Redis) : Prop :=
  ∀ what, (Exchange.process record key offset r).1 = .error what →
    (Exchange.process record key offset r).2.redis = r

/-- The message's key and payload decode to these. -/
def Receives (E : Surroundings RedisOp RedisAns Redis) (parse : Bytes → Except Bytes Json)
    (r : Redis) (record : Json) (key : Bytes) : Prop :=
  ∃ h₁ h₂, (messageKey parse E.message : RunProg RedisAns Bytes).run (Handling.answer E)
      (Handling.start r) = (.ok key, h₁) ∧
    (deserialize parse E.message.payload : RunProg RedisAns (Option Json)).run
      (Handling.answer E) h₁ = (.ok (some record), h₂)

/-- All attempts are made, and the message goes to the dead letters without being
acknowledged as processed. -/
structure DeadLettered (cfg : Config) (m : Message) (h : Handling Redis) : Prop where
  attempts : (h.attempts : Int) = cfg.maxRetries
  exhausted : h.exhausted = [m]
  processed : h.processed = []
  committed : CommitSite.processed ∉ h.committed

/-- A record that an empty Redis has `ProcessRecord` throw back is thrown back by `Run`,
whatever Redis is by then and happens to it between the attempts. -/
def Resolved (record : Json) (key : Bytes) : Prop :=
  (∃ now offset what, (Exchange.process record key offset (Redis.empty now)).1 = .error what) →
    ∀ (cfg : Config) (parse : Bytes → Except Bytes Json)
      (E : Surroundings RedisOp RedisAns Redis) (r : Redis), 0 ≤ cfg.maxRetries →
      (∀ n, E.sink n = RedisConvergence.serve) → Receives E parse r record key →
      DeadLettered cfg E.message (Handling.pass E ⟨cfg, parse, processRecord⟩ r).2

/-- A row that has an order and a text to be stored under it. -/
structure Storable (record : Json) (key : Bytes) (row : Json) (id text : Bytes) : Prop where
  selected : Record.orderData record = some row
  order : Record.orderId row key = .ok id
  known : id ≠ []
  dumped : row.dump = .ok text

/-- The row is no object, or has a status that is not a string. -/
def OddStatus : Json → Prop
  | .obj ms => ∃ v, ms.lookup (bytes "status") = some v ∧ v.isString = false
  | _ => True

/-- The record has a row that the guard lets into Redis, and that is found odd after that. -/
def Spoils (record : Json) (key : Bytes) (r : Redis) : Prop :=
  ∃ row id text, Storable record key row id text ∧ OddStatus row ∧
    refuses r ⟨id, Record.extractLsn record, some text⟩ = false

theorem stringValue_error_iff (row : Json) (default : Bytes) :
    (∃ what, Record.stringValue row (bytes "status") default = .error what) ↔ OddStatus row := by
  cases row with
  | obj ms =>
    simp only [Record.stringValue, OddStatus]
    cases hl : ms.lookup (bytes "status") with
    | none => simp
    | some v => cases v <;> simp [Json.isString]
  | _ => simp [Record.stringValue, OddStatus]

theorem effect_storable {record row : Json} {key id text : Bytes}
    (h : Storable record key row id text) :
    effect record key = .ok (some ⟨id, Record.extractLsn record, some text⟩) := by
  simp only [effect, h.selected, h.order, h.dumped, forOrder, h.known, if_false, Except.map]

/-- What is thrown after an execution was accepted comes from a row that was stored. -/
theorem storable_of_afterwards {record : Json} {key : Bytes} {x : Execution} {what : Bytes}
    (he : effect record key = .ok (some x)) (ha : afterwards record = .error what) :
    ∃ row id text, Storable record key row id text ∧ OddStatus row ∧
      x = ⟨id, Record.extractLsn record, some text⟩ := by
  cases hrow : Record.orderData record with
  | none => simp [afterwards, hrow] at ha
  | some row =>
    have hodd : OddStatus row := by
      rw [← stringValue_error_iff row (bytes "UNKNOWN")]
      simp only [afterwards, hrow] at ha
      cases hs : Record.stringValue row (bytes "status") (bytes "UNKNOWN") with
      | ok status => simp [hs, Except.map] at ha
      | error what => exact ⟨what, rfl⟩
    simp only [effect, hrow] at he
    cases hid : Record.orderId row key with
    | error what => simp [hid, forOrder] at he
    | ok id =>
      by_cases hne : id = []
      · simp [hid, forOrder, hne] at he
      · cases hdump : row.dump with
        | error what => simp [hid, forOrder, hne, hdump, Except.map] at he
        | ok text =>
          refine ⟨row, id, text, ⟨hrow, hid, hne, hdump⟩, hodd, ?_⟩
          simp only [hid, forOrder, hne, hdump, Except.map, if_false] at he
          exact (Option.some.inj (Except.ok.inj he)).symm

theorem afterwards_odd {record row : Json} (hrow : Record.orderData record = some row)
    (h : OddStatus row) : ∃ what, afterwards record = .error what := by
  obtain ⟨what, hw⟩ := (stringValue_error_iff row (bytes "UNKNOWN")).mpr h
  exact ⟨what, by simp only [afterwards, hrow, hw, Except.map]⟩

/-- An execution that was accepted once is refused from then on. -/
theorem refuses_written (x : Execution) (r : Redis) : refuses (written x r) x = true := by
  have hg : (written x r).get (lsnKey x.id) = some (intText x.lsn) := by
    unfold written
    exact Redis.get_setEx_self _ _ _ _
  rw [refuses, hg, Redis.stale, Option.bind_some]
  simp [Redis.tonumber, readDecimal_intText]

theorem written_ne {x : Execution} {r : Redis} (h : refuses r x = false) : written x r ≠ r := by
  intro he
  have hw := refuses_written x r
  rw [he, h] at hw
  contradiction

/-- A record that spoils Redis is thrown back with its row written. -/
theorem process_spoils {record : Json} {key : Bytes} {r : Redis} (h : Spoils record key r)
    (offset : Nat) : ∃ x what, effect record key = .ok (some x) ∧ refuses r x = false ∧
      (Exchange.process record key offset r).1 = .error what ∧
      (Exchange.process record key offset r).2.redis = written x r := by
  obtain ⟨row, id, text, hs, hodd, hr⟩ := h
  obtain ⟨what, hw⟩ := afterwards_odd hs.selected hodd
  have he := effect_storable hs
  refine ⟨_, what, he, hr, ?_, ?_⟩
  · rw [process_eq, summary, he]
    simp [exec_command, hr, hw]
  · rw [process_redis, he]
    simp [exec_command, hr]

theorem untouched_iff (record : Json) (key : Bytes) (offset : Nat) (r : Redis) :
    Untouched record key offset r ↔ ¬ Spoils record key r := by
  refine ⟨fun h hs => ?_, fun h what hw => ?_⟩
  · obtain ⟨x, what, -, hr, hthrown, hredis⟩ := process_spoils hs offset
    exact written_ne hr (hredis ▸ h what hthrown)
  · rw [process_eq, summary] at hw
    rw [process_redis]
    rcases he : effect record key with e | x
    · rfl
    · cases x with
      | none => rfl
      | some x =>
        simp only [he] at hw
        cases hr : refuses r x with
        | true => simp [exec_command, hr]
        | false =>
          simp only [exec_command, hr, Bool.false_eq_true, if_false] at hw
          obtain ⟨row, id, text, hs, hodd, rfl⟩ := storable_of_afterwards he hw
          exact absurd ⟨row, id, text, hs, hodd, hr⟩ h

section Run

variable {E : Surroundings RedisOp RedisAns Redis} {cfg : Config}
  {parse : Bytes → Except Bytes Json} {record : Json} {key : Bytes} {r : Redis}

/-- Not counting its replies, Redis answers alike. -/
theorem run_serve {α : Type} (p : RedisProg α) (s : Exchange) :
    p.run RedisConvergence.serve s.redis =
      ((p.run Exchange.answer s).1, (p.run Exchange.answer s).2.redis) := by
  induction p generalizing s with
  | ret a => rfl
  | raise e => rfl
  | ask op k ih =>
    cases op with
    | contextUsable => exact ih _ _
    | redisConnect => exact ih _ _
    | command c => exact ih _ ⟨(Redis.exec c s.redis).2, _⟩
    | log e => exact ih _ _

theorem serve_process (offset : Nat) :
    (processRecord record key offset).run RedisConvergence.serve r =
      ((Exchange.process record key offset r).1, (Exchange.process record key offset r).2.redis) :=
  run_serve _ ⟨r, []⟩

/-- Decoding has asked for schemas, and done nothing else. -/
theorem received (cfg : Config) (hr : Receives E parse r record key) :
    ∃ k, Handling.pass E ⟨cfg, parse, processRecord⟩ r =
      ((retryLoop cfg processRecord E.message record key cfg.maxRetries.toNat 1
        cfg.initialBackoffMs []).bind (settle cfg E.message record)).run (Handling.answer E)
          { Handling.start r with lookups := k } := by
  obtain ⟨h₁, h₂, hkey, hdoc⟩ := hr
  have hk := run_messageKey (E := E) parse E.message (Handling.start r)
  have hd := run_deserialize (E := E) parse E.message.payload h₁
  rw [hkey] at hk
  rw [hdoc] at hd
  rw [pass_decoded (c := ⟨cfg, parse, processRecord⟩) hkey hdoc, (Prod.mk.inj hd).2,
    (Prod.mk.inj hk).2]
  exact ⟨_, rfl⟩

/-- An error that is there before anything is sent is there at every attempt. -/
theorem pass_error {what : Bytes} (he : effect record key = .error what)
    (hmax : 0 ≤ cfg.maxRetries) (hsink : ∀ n, E.sink n = RedisConvergence.serve)
    (hr : Receives E parse r record key) :
    DeadLettered cfg E.message (Handling.pass E ⟨cfg, parse, processRecord⟩ r).2 := by
  have hall : ∀ n s, ∃ w,
      ((processRecord record key E.message.offset).run (E.sink n) s).1 = .error w := by
    intro n s
    refine ⟨what, ?_⟩
    rw [hsink, serve_process, process_eq, summary, he]
  obtain ⟨k, hpass⟩ := received cfg hr
  obtain ⟨w, s, hloop⟩ := retryLoop_rejected cfg (m := E.message) hall
    cfg.maxRetries.toNat 1 cfg.initialBackoffMs [] { Handling.start r with lookups := k }
  obtain ⟨res, ds, cs, hsettle, hcs⟩ := run_settle_error (E := E) cfg (m := E.message) record w
    { Handling.start r with
      lookups := k, sink := s, attempts := 0 + cfg.maxRetries.toNat }
  have hfinal : (Handling.pass E ⟨cfg, parse, processRecord⟩ r).2 = { Handling.start r with
      lookups := k, sink := s, attempts := 0 + cfg.maxRetries.toNat, deadLetters := ds,
      exhausted := [E.message], committed := cs } := by
    rw [hpass, Prog.run_bind, hloop]
    exact congrArg Prod.snd hsettle
  rw [hfinal]
  refine ⟨by simp only [Nat.zero_add]; exact Int.toNat_of_nonneg hmax, rfl, rfl, ?_⟩
  rcases hcs with rfl | rfl
  · exact List.not_mem_nil
  · simp [Handling.start]

/-- A message that carries the record as plain JSON. -/
def plainMessage (key : Bytes) : Message := ⟨bytes "orders", 0, 0, some key, some (bytes "{}")⟩

/-- Surroundings that let Redis answer, and in which nothing is encoded with a schema. -/
def plainSurroundings (key : Bytes) : Surroundings RedisOp RedisAns Redis where
  message := plainMessage key
  sink := fun _ => RedisConvergence.serve
  asleep := fun _ r => r
  cached := fun _ => false
  reachable := fun _ => true
  serdes := fun _ => .conversionFailed
  unreachable := []
  now := 0
  producer := true
  produced := .ok ()

theorem plain_receives (record : Json) (key : Bytes) (r : Redis) :
    Receives (plainSurroundings key) (fun _ => .ok record) r record key := by
  have hkey : ∃ h,
      (messageKey (fun _ => .ok record) (plainMessage key) : RunProg RedisAns Bytes).run
        (Handling.answer (plainSurroundings key)) (Handling.start r) = (.ok key, h) := by
    cases key with
    | nil => exact ⟨_, rfl⟩
    | cons b bs =>
      unfold messageKey decodedKey
      simp only [plainMessage]
      by_cases hm : hasMagicByte (b :: bs) = true
      · simp only [hm, if_true, deserialize]
        exact ⟨_, rfl⟩
      · simp only [hm]
        exact ⟨_, rfl⟩
  obtain ⟨h, hk⟩ := hkey
  exact ⟨h, h, hk, rfl⟩

/-- The second attempt finds the first one's version, and the message is acknowledged. -/
theorem pass_spoiled {now : Nat} (h : Spoils record key (Redis.empty now)) :
    (Handling.pass (plainSurroundings key)
      ⟨.withDefaults (bytes "RedisUpdater") (bytes "orders"), fun _ => .ok record, processRecord⟩
      (Redis.empty now)).2.processed = [plainMessage key] := by
  obtain ⟨x, what, he, -, hthrown, hredis⟩ := process_spoils h 0
  obtain ⟨k, hpass⟩ := received (.withDefaults (bytes "RedisUpdater") (bytes "orders"))
    (plain_receives record key (Redis.empty now))
  have first : attempt (plainSurroundings key) processRecord record key (plainMessage key)
      { Handling.start (Redis.empty now) with lookups := k } =
        (.error what, written x (Redis.empty now)) := by
    rw [← hthrown, ← hredis]
    exact serve_process 0
  obtain ⟨next, s, hs, hsecond⟩ :=
    retryLoop_error (.withDefaults (bytes "RedisUpdater") (bytes "orders")) first 4 1 100 []
  obtain rfl : s = written x (Redis.empty now) := by
    rcases hs with hs | hs
    · exact hs
    · exact hs
  have second : attempt (plainSurroundings key) processRecord record key (plainMessage key)
      { Handling.start (Redis.empty now) with
        lookups := k, sink := written x (Redis.empty now), attempts := 1 } =
        (.ok (), written x (Redis.empty now)) := by
    refine (serve_process 0).trans ?_
    rw [process_eq, summary, he]
    simp [sent, exec_command, refuses_written]
  have hloop := hsecond.trans (retryLoop_ok (.withDefaults (bytes "RedisUpdater") (bytes "orders"))
    second 3 2 next what)
  rw [hpass, Prog.run_bind]
  erw [hloop]
  rfl

end Run

theorem resolved_iff (record : Json) (key : Bytes) :
    Resolved record key ↔ ∀ now, ¬ Spoils record key (Redis.empty now) := by
  refine ⟨fun h now hs => ?_, ?_⟩
  · obtain ⟨x, what, -, -, hthrown, -⟩ := process_spoils hs 0
    have hdead := h ⟨now, 0, what, hthrown⟩ (.withDefaults (bytes "RedisUpdater") (bytes "orders"))
      (fun _ => .ok record) (plainSurroundings key) (Redis.empty now) (by decide) (fun _ => rfl)
      (plain_receives record key _)
    have hprocessed := hdead.processed
    rw [pass_spoiled hs] at hprocessed
    contradiction
  · rintro h ⟨now, offset, what, hthrown⟩ cfg parse E r hmax hsink hr
    rcases he : effect record key with e | x
    · exact pass_error he hmax hsink hr
    · rw [process_eq, summary, he] at hthrown
      cases x with
      | none => contradiction
      | some x =>
        have hfree : refuses (Redis.empty now) x = false := rfl
        simp only [exec_command, hfree, Bool.false_eq_true, if_false] at hthrown
        obtain ⟨row, id, text, hs, hodd, rfl⟩ := storable_of_afterwards he hthrown
        exact absurd ⟨row, id, text, hs, hodd, hfree⟩ (h now)

/-- A call that throws leaves Redis alone, and `Run` never acknowledges its record, exactly
where no row is stored whose status then turns out not to be a string. -/
theorem rejected_untouched_iff (record : Json) (key : Bytes) :
    (∀ offset r, Untouched record key offset r ↔ ¬ Spoils record key r) ∧
      (Resolved record key ↔ ∀ now, ¬ Spoils record key (Redis.empty now)) :=
  ⟨fun offset r => untouched_iff record key offset r, resolved_iff record key⟩

/-- An order whose status is a number. -/
def oddRecord : Json := .obj [(bytes "id", .str (bytes "7")), (bytes "status", .int 1)]

theorem odd_spoils (now : Nat) : Spoils oddRecord [] (Redis.empty now) := by
  obtain ⟨text, ht⟩ := (Json.dump_ok_iff oddRecord).mpr (by decide)
  exact ⟨oddRecord, bytes "7", text, ⟨rfl, rfl, by decide, ht⟩, ⟨.int 1, rfl, rfl⟩, rfl⟩

/-- It is stored, thrown back, and acknowledged when it is tried again. -/
theorem odd_acknowledged :
    ¬ Untouched oddRecord [] 0 (Redis.empty 0) ∧ ¬ Resolved oddRecord [] :=
  ⟨fun h => (untouched_iff oddRecord [] 0 _).mp h (odd_spoils 0),
    fun h => (resolved_iff oddRecord []).mp h 0 (odd_spoils 0)⟩

end CdcPipeline.Proofs.RejectedRecords
