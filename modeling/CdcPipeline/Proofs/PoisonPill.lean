import CdcPipeline.Library.JsonReader
import CdcPipeline.Proofs.BrokerRuns
import CdcPipeline.Proofs.DecodingRuns

namespace CdcPipeline.Proofs.PoisonPill

open Library Text Model KafkaConsumerBase RunOutline

/-- What a loop that is not stopped finds and leaves, with a producer that works. -/
structure Desk where
  pending : List Message
  attempts : Nat
  lookups : Nat
  published : List (Bytes × Bytes × Option Bytes)
  committed : List Message

/-- The answers of one setting: those of serdes to each question, of `ProcessRecord` at each
attempt, and of the clock. -/
structure Answers where
  avro : Nat → Bytes → AvroResult
  outcome : Nat → Except Bytes Unit
  now : Int

abbrev Attempt := fun _ : Unit => Except Bytes Unit

def serve (A : Answers) : Handler (RunOp Unit) (RunAns Attempt) Desk
  | .storeRunning _, d => ((), d)
  | .loadRunning, d => (true, d)
  | .consume _, d => match d.pending with
    | [] => (.timedOut, d)
    | m :: rest => (.message m, { d with pending := rest })
  | .serdesDeserialize data, d => (A.avro d.lookups data, { d with lookups := d.lookups + 1 })
  | .sink (), d => (A.outcome d.attempts, { d with attempts := d.attempts + 1 })
  | .sleepFor _, d => ((), d)
  | .systemClock, d => (A.now, d)
  | .hasProducer, d => (true, d)
  | .produce _ topic body key, d =>
    (.ok (), { d with published := d.published ++ [(topic, body, key)] })
  | .poll _, d => ((), d)
  | .flush _, d => ((), d)
  | .commitSync m _, d => ((), { d with committed := d.committed ++ [m] })
  | .close, d => ((), d)
  | .log _, d => ((), d)

/-- A `ProcessRecord` that does at each attempt what the setting says. -/
def processRecord (_ : Json) (_ : Bytes) (_ : Nat) : Prog Unit Attempt Bytes Unit :=
  (Prog.call ()).bind Prog.ofExcept

def consumer (cfg : Config) (parse : Bytes → Except Bytes Json) : Consumer Unit Attempt :=
  ⟨cfg, parse, processRecord⟩

def desk (m : Message) (rest : List Message) : Desk := ⟨m :: rest, 0, 0, [], []⟩

/-- One pass through the loop, from its condition. -/
def pass (cfg : Config) (parse : Bytes → Except Bytes Json) (A : Answers) (m : Message)
    (rest : List Message) : Except Bytes Node × Desk :=
  ((consumer cfg parse).run .head).run (serve A) (desk m rest)

def rawPayload (m : Message) : Bytes := m.payload.getD []

/-- How often serdes is asked about these bytes. -/
def lookups (data : Option Bytes) : Nat := if data.any hasMagicByte then 1 else 0

/-- What the payload is decoded to, after the key. -/
def decoded (parse : Bytes → Except Bytes Json) (A : Answers) (m : Message) : Option Json :=
  match m.payload with
  | none => none
  | some payload => decode parse (A.avro (lookups m.key) payload) (some payload)

/-- Every attempt that `maxRetries` allows fails. -/
def Exhausts (cfg : Config) (A : Answers) : Prop :=
  ∀ n < cfg.maxRetries.toNat, ∃ e, A.outcome n = .error e

def errorOf : Except Bytes Unit → Bytes
  | .ok _ => []
  | .error e => e

/-- The error of the last attempt allowed. -/
def lastError (cfg : Config) (A : Answers) : Bytes :=
  match cfg.maxRetries.toNat with
  | 0 => []
  | n + 1 => errorOf (A.outcome n)

/-- A dead letter that a reader of JSON gets the payload back from. -/
def Recoverable (body : Bytes) (payload : Json) : Prop :=
  ∃ envelope, Json.read body = some envelope ∧
    envelope.member (bytes "payload") = some payload

/-- The message is finished with: nothing escapes, the loop goes on to the next one,
and a message that was rejected or exhausted its retries is in the dead-letter
queue, readable, and committed. -/
structure NoPoison (cfg : Config) (parse : Bytes → Except Bytes Json) (A : Answers) (m : Message)
    (rest : List Message) : Prop where
  goesOn : (pass cfg parse A m rest).1 = .ok .head ∧ (pass cfg parse A m rest).2.pending = rest
  rejected : decoded parse A m = none →
    (∃ body, (pass cfg parse A m rest).2.published = [(cfg.dlqTopic, body, dlqKey m)] ∧
      Recoverable body (.str (rawPayload m))) ∧ (pass cfg parse A m rest).2.committed = [m]
  exhausted : ∀ doc, decoded parse A m = some doc → Exhausts cfg A →
    (∃ body, (pass cfg parse A m rest).2.published = [(cfg.dlqTopic, body, dlqKey m)] ∧
      Recoverable body (if doc.isNull then .str (rawPayload m) else doc)) ∧
    (pass cfg parse A m rest).2.committed = [m]

/-- What has to be UTF-8 for the dead letter to be written, when there is one. -/
def Encodable (cfg : Config) (parse : Bytes → Except Bytes Json) (A : Answers) (m : Message) :
    Prop :=
  (decoded parse A m = none → Utf8.valid (rawPayload m) = true) ∧
  ∀ doc, decoded parse A m = some doc → Exhausts cfg A →
    Utf8.valid (lastError cfg A) = true ∧ (doc.isNull = true → Utf8.valid (rawPayload m) = true)

section Parts

variable {cfg : Config} {parse : Bytes → Except Bytes Json} {A : Answers} {m : Message}

theorem unmoved_serve : DecodingRuns.Unmoved (serve A) := fun _ _ _ => rfl

theorem ask_serve (data : Option Bytes) (d : Desk) :
    (DecodingRuns.ask (serve A) d data).2 = { d with lookups := d.lookups + lookups data } := by
  cases data with
  | none => rfl
  | some data =>
    simp only [DecodingRuns.ask, lookups, Option.any_some, serve]
    split <;> rfl

theorem decode_ask (payload : Option Bytes) (d : Desk) :
    decode parse (DecodingRuns.ask (serve A) d payload).1 payload =
      payload.bind (fun data => decode parse (A.avro d.lookups data) (some data)) := by
  rcases payload with _ | _ | ⟨b, bs⟩
  · rfl
  · rfl
  · by_cases hm : hasMagicByte (b :: bs) = true
    · simp only [DecodingRuns.ask, hm, if_true, serve, Option.bind_some]
    · simp only [decode, hm, Bool.false_eq_true, if_false, Option.bind_some]

/-- The desk once the key has been decoded. -/
def keyed (m : Message) (rest : List Message) : Desk := ⟨rest, 0, lookups m.key, [], []⟩

/-- And once the payload has been. -/
def opened (m : Message) (rest : List Message) (attempts : Nat) : Desk :=
  ⟨rest, attempts, lookups m.key + lookups m.payload, [], []⟩

theorem run_decoded (rest : List Message) :
    (deserialize parse m.payload : RunProg Attempt (Option Json)).run (serve A)
      (keyed m rest) = (.ok (decoded parse A m), opened m rest 0) := by
  rw [DecodingRuns.run_deserialize unmoved_serve, ask_serve, decode_ask, decoded]
  cases hp : m.payload with
  | none => simp only [opened, keyed, hp, Option.bind_none]
  | some payload => simp only [opened, keyed, hp, Option.bind_some]

theorem run_messageKey (hparse : ∀ s j, parse s = .ok j → j.utf8 = true) (rest : List Message) :
    ∃ key, (messageKey parse m : RunProg Attempt Bytes).run (serve A) ⟨rest, 0, 0, [], []⟩ =
      (.ok key, keyed m rest) := by
  obtain ⟨key, hk⟩ := keyOf_ok hparse (DecodingRuns.ask (serve A) ⟨rest, 0, 0, [], []⟩ m.key).1
    m.key
  refine ⟨key, ?_⟩
  rw [DecodingRuns.run_messageKey unmoved_serve, hk, ask_serve, Nat.zero_add]
  rfl

/-- The retry loop reads the outcomes from the next one on. -/
def loopResult (A : Answers) : Nat → Nat → Bytes → Except Bytes Unit × Nat
  | 0, n, last => (.error last, n)
  | left + 1, n, _ => match A.outcome n with
    | .ok _ => (.ok (), n + 1)
    | .error e => loopResult A left (n + 1) e

theorem run_backOff (attempt backoffMs : Int) (d : Desk) :
    ∃ next, (backOff cfg attempt backoffMs : RunProg Attempt Int).run (serve A) d =
      (.ok next, d) := by
  unfold backOff
  split
  · exact ⟨_, rfl⟩
  · exact ⟨_, rfl⟩

theorem run_retryLoop (doc : Json) (key : Bytes) (left : Nat) (attempt backoffMs : Int)
    (last : Bytes) (d : Desk) :
    (retryLoop cfg processRecord m doc key left attempt backoffMs last).run
      (serve A) d = (.ok (loopResult A left d.attempts last).1,
        { d with attempts := (loopResult A left d.attempts last).2 }) := by
  induction left generalizing attempt backoffMs last d with
  | zero => rfl
  | succ left ih =>
    simp only [retryLoop, loopResult, call, process, processRecord, Prog.bind_eq, Prog.call_bind,
      Prog.run_ask, serve, if_true, Prog.embed_ask, Prog.run_bind, Prog.run_attempt,
      Prog.ask_bind]
    cases ho : A.outcome d.attempts with
    | ok _ => rfl
    | error e =>
      simp only [Prog.ofExcept_error, Prog.embed_raise, Prog.run_raise, Prog.run_ask, serve]
      obtain ⟨next, hn⟩ := run_backOff (A := A) attempt backoffMs
        { d with attempts := d.attempts + 1 }
      rw [Prog.run_bind, hn]
      exact ih _ _ _ _

theorem run_divert (reason : Bytes) (doc : Json) (site : CommitSite) (d : Desk) :
    (do let _ ← routeToDlq cfg m reason doc
        call (.commitSync m site)).run (serve A) d =
      match (dlqEnvelope cfg m reason doc A.now).dump with
      | .ok body => (.ok (), { d with
          published := d.published ++ [(cfg.dlqTopic, body, dlqKey m)]
          committed := d.committed ++ [m] })
      | .error e => (.error e, d) := by
  simp only [routeToDlq, call, Prog.bind_eq, Prog.call_bind, Prog.ask_bind, Prog.run_ask, serve,
    if_true, Prog.run_bind]
  cases (dlqEnvelope cfg m reason doc A.now).dump with
  | error e => rfl
  | ok body => rfl

theorem loopResult_exhausts (left n : Nat) (last : Bytes)
    (h : ∀ i < left, ∃ e, A.outcome (n + i) = .error e) :
    loopResult A left n last = (.error (match left with
      | 0 => last
      | k + 1 => errorOf (A.outcome (n + k))), n + left) := by
  induction left generalizing n last with
  | zero => rfl
  | succ left ih =>
    obtain ⟨e, he⟩ := h 0 (Nat.succ_pos left)
    rw [Nat.add_zero] at he
    have hrest : ∀ i < left, ∃ e, A.outcome (n + 1 + i) = .error e := by
      intro i hi
      rw [Nat.add_assoc, Nat.add_comm 1 i]
      exact h (i + 1) (Nat.succ_lt_succ hi)
    simp only [loopResult, he, ih (n + 1) e hrest]
    cases left with
    | zero => simp [he, errorOf]
    | succ k => simp only [Nat.add_assoc, Nat.add_comm 1]

theorem loopResult_succeeds (left n : Nat) (last : Bytes)
    (h : ¬ ∀ i < left, ∃ e, A.outcome (n + i) = .error e) :
    (loopResult A left n last).1 = .ok () := by
  induction left generalizing n last with
  | zero => exact absurd (fun i hi => absurd hi (Nat.not_lt_zero i)) h
  | succ left ih =>
    cases ho : A.outcome n with
    | ok _ => simp only [loopResult, ho]
    | error e =>
      simp only [loopResult, ho]
      apply ih
      intro hrest
      apply h
      intro i hi
      cases i with
      | zero => exact ⟨e, ho⟩
      | succ i =>
        obtain ⟨e', he'⟩ := hrest i (Nat.lt_of_succ_lt_succ hi)
        rw [Nat.add_assoc, Nat.add_comm 1 i] at he'
        exact ⟨e', he'⟩

theorem loop_exhausts (h : Exhausts cfg A) :
    loopResult A cfg.maxRetries.toNat 0 [] = (.error (lastError cfg A), cfg.maxRetries.toNat) := by
  have hall : ∀ i < cfg.maxRetries.toNat, ∃ e, A.outcome (0 + i) = .error e := by
    intro i hi
    rw [Nat.zero_add]
    exact h i hi
  unfold lastError
  generalize cfg.maxRetries.toNat = n at hall
  rw [loopResult_exhausts n 0 [] hall]
  cases n with
  | zero => rfl
  | succ n => simp only [Nat.zero_add]

theorem loop_succeeds (h : ¬ Exhausts cfg A) :
    (loopResult A cfg.maxRetries.toNat 0 []).1 = .ok () := by
  apply loopResult_succeeds
  intro hall
  exact h (fun i hi => by have hi' := hall i hi; rwa [Nat.zero_add] at hi')

end Parts

section Pass

theorem decode_some_utf8 {parse : Bytes → Except Bytes Json} {A : Answers} {m : Message}
    (hparse : ∀ s j, parse s = .ok j → j.utf8 = true) {doc : Json}
    (h : decoded parse A m = some doc) : doc.utf8 = true := by
  unfold decoded at h
  cases hp : m.payload with
  | none => simp [hp] at h
  | some payload =>
    simp only [hp] at h
    exact decode_utf8 hparse h

variable {cfg : Config} {parse : Bytes → Except Bytes Json} {A : Answers} {m : Message}
  {rest : List Message}

/-- A dead letter is published and its message committed, unless it cannot be written. -/
def deadLetter (cfg : Config) (A : Answers) (m : Message) (reason : Bytes) (doc : Json)
    (d : Desk) : Except Bytes Node × Desk :=
  match (dlqEnvelope cfg m reason doc A.now).dump with
  | .ok body => (.ok .head, { d with
      published := d.published ++ [(cfg.dlqTopic, body, dlqKey m)]
      committed := d.committed ++ [m] })
  | .error e => (.error e, d)

theorem pass_handle : pass cfg parse A m rest =
    match (handleMessage parse cfg processRecord m).run (serve A) ⟨rest, 0, 0, [], []⟩ with
    | (.ok _, d) => (.ok .head, d)
    | (.error e, d) => (.error e, d) := by
  simp only [pass, consumer, Consumer.run, iteration, desk, call, Prog.bind_eq, Prog.pure_eq,
    Prog.call_bind, Prog.run_ask, serve, if_true, Prog.run_bind]
  obtain ⟨r, d⟩ := (handleMessage parse cfg processRecord m).run (serve A) ⟨rest, 0, 0, [], []⟩
  cases r with
  | ok _ => rfl
  | error e => rfl

theorem run_handleMessage (hparse : ∀ s j, parse s = .ok j → j.utf8 = true) (rest : List Message) :
    ∃ key, (handleMessage parse cfg processRecord m).run (serve A) ⟨rest, 0, 0, [], []⟩ =
      match decoded parse A m with
      | none => (do
          let _ ← routeToDlq cfg m (bytes "Payload deserialization failed") .null
          call (.commitSync m .unparseable) : RunProg Attempt Unit).run (serve A) (opened m rest 0)
      | some doc =>
        match (retryLoop cfg processRecord m doc key cfg.maxRetries.toNat 1
          cfg.initialBackoffMs []).run (serve A) (opened m rest 0) with
        | (.ok (.ok _), d) => (.ok (), { d with committed := d.committed ++ [m] })
        | (.ok (.error e), d) => (do
            let _ ← routeToDlq cfg m e doc
            call (.commitSync m .exhausted) : RunProg Attempt Unit).run (serve A) d
        | (.error e, d) => (.error e, d) := by
  obtain ⟨key, hkey⟩ := run_messageKey (m := m) (A := A) hparse rest
  refine ⟨key, ?_⟩
  simp only [handleMessage, Prog.bind_eq]
  rw [Prog.run_bind, hkey]
  simp only
  rw [Prog.run_bind, run_decoded]
  cases decoded parse A m with
  | none => rfl
  | some doc =>
    simp only
    rw [Prog.run_bind, run_retryLoop]
    cases (loopResult A cfg.maxRetries.toNat (opened m rest 0).attempts []).1 with
    | ok _ => rfl
    | error e => rfl

theorem pass_rejected (rest : List Message) (hparse : ∀ s j, parse s = .ok j → j.utf8 = true)
    (hd : decoded parse A m = none) : pass cfg parse A m rest =
      deadLetter cfg A m (bytes "Payload deserialization failed") .null (opened m rest 0) := by
  obtain ⟨key, h⟩ := run_handleMessage (m := m) (A := A) hparse rest
  rw [pass_handle, h, hd]
  simp only
  rw [run_divert, deadLetter]
  cases (dlqEnvelope cfg m (bytes "Payload deserialization failed") .null A.now).dump with
  | error e => rfl
  | ok body => rfl

theorem pass_exhausted (rest : List Message)
    (hparse : ∀ s j, parse s = .ok j → j.utf8 = true) {doc : Json}
    (hd : decoded parse A m = some doc) (hx : Exhausts cfg A) : pass cfg parse A m rest =
      deadLetter cfg A m (lastError cfg A) doc (opened m rest cfg.maxRetries.toNat) := by
  obtain ⟨key, h⟩ := run_handleMessage (m := m) (A := A) hparse rest
  rw [pass_handle, h, hd]
  simp only
  rw [run_retryLoop, opened, loop_exhausts hx]
  simp only
  rw [run_divert, deadLetter]
  cases (dlqEnvelope cfg m (lastError cfg A) doc A.now).dump with
  | error e => rfl
  | ok body => rfl

theorem pass_processed (hparse : ∀ s j, parse s = .ok j → j.utf8 = true) {doc : Json}
    (hd : decoded parse A m = some doc) (hx : ¬ Exhausts cfg A) :
    (pass cfg parse A m rest).1 = .ok .head ∧ (pass cfg parse A m rest).2.pending = rest := by
  obtain ⟨key, h⟩ := run_handleMessage (m := m) (A := A) hparse rest
  rw [pass_handle, h, hd]
  simp only
  rw [run_retryLoop, opened, loop_succeeds hx]
  exact ⟨rfl, rfl⟩

/-- The envelope can be written exactly when its two foreign strings are UTF-8. -/
theorem envelope_utf8 (now : Int) (hname : Utf8.valid cfg.consumerName = true)
    (htopic : Utf8.valid m.topic = true) {reason : Bytes} {doc : Json} (hdoc : doc.utf8 = true) :
    (dlqEnvelope cfg m reason doc now).utf8 = true ↔
      Utf8.valid reason = true ∧ (doc.isNull = true → Utf8.valid (rawPayload m) = true) := by
  have literals : ∀ k ∈ ["consumer", "error", "original_offset", "original_partition",
      "original_topic", "payload", "timestamp_ms"], Utf8.valid (bytes k) = true := by decide
  simp only [List.forall_mem_cons] at literals
  obtain ⟨h1, h2, h3, h4, h5, h6, h7, -⟩ := literals
  simp only [dlqEnvelope, Json.utf8, Json.utf8Members, h1, h2, h3, h4, h5, h6, h7, hname, htopic,
    Bool.true_and, Bool.and_true, Bool.and_eq_true]
  apply and_congr_right
  intro _
  cases doc.isNull with
  | true => simp [Json.utf8, rawPayload]
  | false => simp [hdoc]

theorem recoverable_envelope {reason body : Bytes} {doc : Json}
    (h : (dlqEnvelope cfg m reason doc A.now).dump = .ok body) :
    Recoverable body (if doc.isNull then .str (rawPayload m) else doc) :=
  ⟨_, Json.read_dump h, rfl⟩

/-- The loop goes on exactly behind a dead letter that could be written. -/
theorem deadLetter_ok {reason : Bytes} {doc : Json} {d : Desk} :
    (deadLetter cfg A m reason doc d).1 = .ok .head ↔
      ∃ body, (dlqEnvelope cfg m reason doc A.now).dump = .ok body := by
  unfold deadLetter
  cases (dlqEnvelope cfg m reason doc A.now).dump with
  | error e => simp
  | ok body => simp

theorem deadLetter_spec (hname : Utf8.valid cfg.consumerName = true)
    (htopic : Utf8.valid m.topic = true) {reason : Bytes} {doc : Json} (hdoc : doc.utf8 = true)
    {n : Nat} (hpass : pass cfg parse A m rest = deadLetter cfg A m reason doc (opened m rest n)) :
    ((pass cfg parse A m rest).1 = .ok .head → Utf8.valid reason = true ∧
      (doc.isNull = true → Utf8.valid (rawPayload m) = true)) ∧
    (Utf8.valid reason = true ∧ (doc.isNull = true → Utf8.valid (rawPayload m) = true) →
      ∃ body, Recoverable body (if doc.isNull then .str (rawPayload m) else doc) ∧
        pass cfg parse A m rest =
          (.ok .head, { opened m rest n with
            published := [(cfg.dlqTopic, body, dlqKey m)]
            committed := [m] })) := by
  rw [hpass]
  refine ⟨fun h => ?_, fun h => ?_⟩
  · exact (envelope_utf8 A.now hname htopic hdoc).mp
      ((Json.dump_ok_iff _).mp (deadLetter_ok.mp h))
  · obtain ⟨body, hb⟩ := (Json.dump_ok_iff _).mpr
      ((envelope_utf8 A.now hname htopic hdoc).mpr h)
    refine ⟨body, recoverable_envelope hb, ?_⟩
    simp only [deadLetter, hb]
    rfl

/-- A message is finished with exactly when what its dead letter quotes is UTF-8. -/
theorem no_poison_iff (hparse : ∀ s j, parse s = .ok j → j.utf8 = true)
    (hname : Utf8.valid cfg.consumerName = true) (htopic : Utf8.valid m.topic = true) :
    NoPoison cfg parse A m rest ↔ Encodable cfg parse A m := by
  have hreason : Utf8.valid (bytes "Payload deserialization failed") = true := by decide
  cases hd : decoded parse A m with
  | none =>
    have hspec := deadLetter_spec hname htopic rfl (pass_rejected rest hparse hd)
    refine ⟨fun h => ⟨fun _ => (hspec.1 h.goesOn.1).2 rfl, ?_⟩, fun h => ?_⟩
    · intro doc he
      rw [hd] at he
      contradiction
    · obtain ⟨body, hrec, hp⟩ := hspec.2 ⟨hreason, fun _ => h.1 hd⟩
      refine ⟨by rw [hp]; exact ⟨rfl, rfl⟩, fun _ => ?_, ?_⟩
      · rw [hp]
        exact ⟨⟨body, rfl, hrec⟩, rfl⟩
      · intro doc he
        rw [hd] at he
        contradiction
  | some doc =>
    have notNone : decoded parse A m = none → False := by
      intro he
      rw [hd] at he
      contradiction
    by_cases hx : Exhausts cfg A
    · have hspec := deadLetter_spec hname htopic (decode_some_utf8 hparse hd)
        (pass_exhausted rest hparse hd hx)
      refine ⟨fun h => ⟨fun he => absurd he notNone, ?_⟩, fun h => ?_⟩
      · intro doc' he _
        rw [hd] at he
        obtain rfl := Option.some.inj he
        exact hspec.1 h.goesOn.1
      · obtain ⟨body, hrec, hp⟩ := hspec.2 (h.2 doc hd hx)
        refine ⟨by rw [hp]; exact ⟨rfl, rfl⟩, fun he => absurd he notNone, ?_⟩
        intro doc' he _
        rw [hd] at he
        obtain rfl := Option.some.inj he
        rw [hp]
        exact ⟨⟨body, rfl, hrec⟩, rfl⟩
    · refine ⟨fun _ => ⟨fun he => absurd he notNone, fun _ _ h => absurd h hx⟩, fun _ => ?_⟩
      exact ⟨pass_processed hparse hd hx, fun he => absurd he notNone, fun _ _ h => absurd h hx⟩

end Pass

def config : Config := .withDefaults (bytes "ESIndexer") (bytes "orders")

def answers : Answers := ⟨fun _ _ => .conversionFailed, fun _ => .error (bytes "refused"), 0⟩

def message (payload : Bytes) : Message := ⟨bytes "orders", 0, 0, none, some payload⟩

theorem no_poison_text : NoPoison config BrokerRuns.parse answers (message (bytes "x")) [] := by
  apply (no_poison_iff BrokerRuns.parse_utf8 (by decide) (by decide)).mpr
  exact ⟨fun _ => by decide, fun doc h => by contradiction⟩

/-- A payload of the single byte `FF` stops the consumer, uncommitted. -/
theorem poison_pill :
    (pass config BrokerRuns.parse answers (message [0xFF]) []).1 =
      .error (bytes "[json.exception.type_error.316] invalid UTF-8 byte at index 0: 0xFF") ∧
    (pass config BrokerRuns.parse answers (message [0xFF]) []).2.committed = [] ∧
    ¬ NoPoison config BrokerRuns.parse answers (message [0xFF]) [] := by
  have hescape : (pass config BrokerRuns.parse answers (message [0xFF]) []).1 =
      .error (bytes "[json.exception.type_error.316] invalid UTF-8 byte at index 0: 0xFF") := rfl
  refine ⟨hescape, rfl, fun h => ?_⟩
  rw [h.goesOn.1] at hescape
  contradiction

end CdcPipeline.Proofs.PoisonPill
