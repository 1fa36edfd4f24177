import CdcPipeline.Model.Handling
import CdcPipeline.Proofs.DecodingRuns

namespace CdcPipeline.Proofs.RetryRuns

open Library Text Model KafkaConsumerBase Handling RunOutline

variable {Sink S : Type} {SinkAns : Sink → Type} {E : Surroundings Sink SinkAns S}
  {processRecord : Json → Bytes → Nat → Prog Sink SinkAns Bytes Unit}

/-- What `ProcessRecord` does with the sink at the attempt that is next. -/
def attempt (E : Surroundings Sink SinkAns S)
    (processRecord : Json → Bytes → Nat → Prog Sink SinkAns Bytes Unit) (doc : Json) (key : Bytes)
    (m : Message) (h : Handling S) : Except Bytes Unit × S :=
  (processRecord doc key m.offset).run (E.sink h.attempts) h.sink

theorem answer_loadRunning (h : Handling S) : answer E .loadRunning h = (true, h) := rfl

theorem answer_log (e : LogEvent) (h : Handling S) : answer E (.log e) h = ((), logged h e) := rfl

theorem run_embed {α : Type} (p : Prog Sink SinkAns Bytes α) (h : Handling S) :
    (p.embed RunOp.sink (fun _ a => a) : RunProg SinkAns α).run (answer E) h =
      ((p.run (E.sink h.attempts) h.sink).1,
        { h with sink := (p.run (E.sink h.attempts) h.sink).2 }) := by
  induction p generalizing h with
  | ret a => rfl
  | raise e => rfl
  | ask op k ih =>
    rw [Prog.embed_ask, Prog.run_ask]
    exact ih _ _

theorem run_process (doc : Json) (key : Bytes) (m : Message) (h : Handling S) :
    (process processRecord doc key m).run (answer E) h =
      ((attempt E processRecord doc key m h).1,
        { h with sink := (attempt E processRecord doc key m h).2 }) :=
  run_embed _ h

/-- The pause after a failed attempt touches the sink at most by its passing. -/
theorem run_backOff (cfg : Config) (n backoffMs : Int) (h : Handling S) :
    ∃ next s, (s = h.sink ∨ s = E.asleep backoffMs h.sink) ∧
      (backOff cfg n backoffMs : RunProg SinkAns Int).run (answer E) h =
        (.ok next, { h with sink := s }) := by
  unfold backOff
  split
  · exact ⟨_, _, Or.inr rfl, rfl⟩
  · exact ⟨_, _, Or.inl rfl, rfl⟩

variable (cfg : Config) {m : Message} {doc : Json} {key : Bytes}

theorem retryLoop_ok {h : Handling S} {s : S}
    (ha : attempt E processRecord doc key m h = (.ok (), s)) (left : Nat) (n backoffMs : Int)
    (last : Bytes) :
    (retryLoop cfg processRecord m doc key (left + 1) n backoffMs last).run (answer E) h =
      (.ok (.ok ()), { h with sink := s, processed := m :: h.processed }) := by
  simp only [retryLoop, call, Prog.bind_eq, Prog.call_bind, Prog.run_ask, answer_loadRunning,
    if_true, Prog.run_bind, Prog.run_attempt, run_process, ha]
  rfl

theorem retryLoop_error {h : Handling S} {s : S} {what : Bytes}
    (ha : attempt E processRecord doc key m h = (.error what, s)) (left : Nat) (n backoffMs : Int)
    (last : Bytes) :
    ∃ next s', (s' = s ∨ s' = E.asleep backoffMs s) ∧
      (retryLoop cfg processRecord m doc key (left + 1) n backoffMs last).run (answer E) h =
        (retryLoop cfg processRecord m doc key left (n + 1) next what).run (answer E)
          { h with sink := s', attempts := h.attempts + 1 } := by
  obtain ⟨next, s', hs, hb⟩ := run_backOff (E := E) cfg n backoffMs
    { h with sink := s, attempts := h.attempts + 1 }
  refine ⟨next, s', hs, ?_⟩
  simp only [retryLoop, call, Prog.bind_eq, Prog.call_bind, Prog.run_ask, answer_loadRunning,
    if_true, Prog.run_bind, Prog.run_attempt, run_process, ha, answer_log, logged, hb]

/-- A record that is thrown back at every attempt exhausts them all. -/
theorem retryLoop_rejected
    (hall : ∀ n s, ∃ what, ((processRecord doc key m.offset).run (E.sink n) s).1 = .error what)
    (left : Nat) (n backoffMs : Int) (last : Bytes) (h : Handling S) :
    ∃ what s, (retryLoop cfg processRecord m doc key left n backoffMs last).run (answer E) h =
      (.ok (.error what), { h with sink := s, attempts := h.attempts + left }) := by
  induction left generalizing n backoffMs last h with
  | zero => exact ⟨last, h.sink, rfl⟩
  | succ left ih =>
    obtain ⟨what, hw⟩ := hall h.attempts h.sink
    obtain ⟨next, s', -, he⟩ := retryLoop_error (E := E) cfg
      (Prod.ext hw rfl : attempt E processRecord doc key m h = (.error what, _))
      left n backoffMs last
    obtain ⟨what', s, hr⟩ := ih (n + 1) next what { h with sink := s', attempts := h.attempts + 1 }
    refine ⟨what', s, ?_⟩
    rw [he, hr]
    simp only [Nat.add_assoc, Nat.add_comm 1 left]

/-- A sink that works at some attempt, before those allowed are used up, has the record
processed. -/
theorem retryLoop_recovers {up : Nat}
    (hup : ∀ s, ((processRecord doc key m.offset).run (E.sink up) s).1 = .ok ())
    (left : Nat) (n backoffMs : Int) (last : Bytes) (h : Handling S) (hn : h.attempts ≤ up)
    (hleft : up < h.attempts + left) :
    ∃ s k, (retryLoop cfg processRecord m doc key left n backoffMs last).run (answer E) h =
      (.ok (.ok ()), { h with sink := s, attempts := k, processed := m :: h.processed }) := by
  induction left generalizing n backoffMs last h with
  | zero => omega
  | succ left ih =>
    cases ha : (attempt E processRecord doc key m h).1 with
    | ok _ => exact ⟨_, _, retryLoop_ok cfg (Prod.ext ha rfl) left n backoffMs last⟩
    | error what =>
      -- the sink is not up yet, so that an attempt is left for when it is
      have hdown : h.attempts < up := by
        by_contra hle
        have hat := Nat.le_antisymm hn (Nat.le_of_not_lt hle)
        rw [attempt, hat, hup] at ha
        contradiction
      obtain ⟨next, s', -, he⟩ := retryLoop_error (E := E) cfg
        (Prod.ext ha rfl : attempt E processRecord doc key m h = (.error what, _))
        left n backoffMs last
      obtain ⟨s, k, hr⟩ := ih (n + 1) next what { h with sink := s', attempts := h.attempts + 1 }
        hdown (by simp only; omega)
      exact ⟨s, k, he.trans hr⟩

section Decoding

variable (parse : Bytes → Except Bytes Json)

/-- What serdes answers about these bytes, if it is asked about them. -/
def asked (E : Surroundings Sink SinkAns S) (l : Lookups) : Option Bytes → AvroResult × Lookups
  | some data => if hasMagicByte data then E.lookUp l data else (.conversionFailed, l)
  | none => (.conversionFailed, l)

theorem unmoved_answer : DecodingRuns.Unmoved (answer E) := by
  intro e h he
  cases e with
  | recordProcessed | recordProcessingFailed | retriesExhaustedRoutingDlq => exact he.elim
  | _ => rfl

theorem ask_answer (data : Option Bytes) (h : Handling S) : DecodingRuns.ask (answer E) h data =
    ((asked E h.lookups data).1, { h with lookups := (asked E h.lookups data).2 }) := by
  cases data with
  | none => rfl
  | some data =>
    simp only [DecodingRuns.ask, asked, answer]
    split <;> rfl

theorem run_deserialize (payload : Option Bytes) (h : Handling S) :
    (deserialize parse payload : RunProg SinkAns (Option Json)).run (answer E) h =
      (.ok (decode parse (asked E h.lookups payload).1 payload),
        { h with lookups := (asked E h.lookups payload).2 }) := by
  rw [DecodingRuns.run_deserialize unmoved_answer, ask_answer]

theorem run_messageKey (m : Message) (h : Handling S) :
    (messageKey parse m : RunProg SinkAns Bytes).run (answer E) h =
      (keyOf parse (asked E h.lookups m.key).1 m.key,
        { h with lookups := (asked E h.lookups m.key).2 }) := by
  rw [DecodingRuns.run_messageKey unmoved_answer, ask_answer]

end Decoding

/-- What `Run` does with the outcome of the retry loop. -/
def settle (cfg : Config) (m : Message) (doc : Json) : Except Bytes Unit → RunProg SinkAns Unit
  | .ok () => call (.commitSync m .processed)
  | .error lastError => do
    if ← call .loadRunning then
      call (.log (.retriesExhaustedRoutingDlq m lastError))
      let _ ← routeToDlq cfg m lastError doc
      call (.commitSync m .exhausted)

/-- What it does with a message that does not decode. -/
def divert (cfg : Config) (m : Message) : RunProg SinkAns Unit := do
  call (.log (.unparseablePayloadRoutingDlq m))
  let _ ← routeToDlq cfg m (bytes "Payload deserialization failed") .null
  call (.commitSync m .unparseable)

theorem run_routeToDlq (doc : Json) (reason : Bytes) (h : Handling S) :
    ∃ res ds, (routeToDlq cfg m reason doc : RunProg SinkAns Bool).run (answer E) h =
      (res, { h with deadLetters := ds }) := by
  simp only [routeToDlq, call, Prog.bind_eq, Prog.call_bind, Prog.run_ask, answer]
  by_cases hp : E.producer = true
  · simp only [hp, if_true, Prog.run_ask, answer]
    cases (dlqEnvelope cfg m reason doc E.now).dump with
    | error what => exact ⟨_, h.deadLetters, rfl⟩
    | ok body =>
      simp only [Prog.ofExcept_ok, Prog.ret_bind, Prog.run_ask, answer]
      rcases E.produced with what | _
      · exact ⟨_, m :: h.deadLetters, rfl⟩
      · exact ⟨_, m :: h.deadLetters, rfl⟩
  · simp only [hp]
    exact ⟨_, h.deadLetters, rfl⟩

/-- A message whose attempts are used up is diverted, and then committed unless that throws. -/
theorem run_settle_error (doc : Json) (what : Bytes) (h : Handling S) :
    ∃ res ds cs, (settle cfg m doc (.error what) : RunProg SinkAns Unit).run (answer E) h =
      (res, { h with deadLetters := ds, exhausted := m :: h.exhausted, committed := cs }) ∧
      (cs = h.committed ∨ cs = .exhausted :: h.committed) := by
  obtain ⟨res, ds, hr⟩ := run_routeToDlq (E := E) cfg doc (m := m) what
    { h with exhausted := m :: h.exhausted }
  simp only [settle, call, Prog.bind_eq, Prog.call_bind, Prog.run_ask, answer_loadRunning, if_true,
    answer_log, logged, Prog.run_bind, hr]
  cases res with
  | error e => exact ⟨_, _, _, rfl, Or.inl rfl⟩
  | ok b => exact ⟨_, _, _, rfl, Or.inr rfl⟩

section Pass

variable {c : Consumer Sink SinkAns} {s : S} {h₁ h₂ : Handling S}

theorem pass_decoded
    (hkey : (messageKey c.parse E.message).run (answer E) (start s) = (.ok key, h₁))
    (hdoc : (deserialize c.parse E.message.payload).run (answer E) h₁ = (.ok (some doc), h₂)) :
    Handling.pass E c s = ((retryLoop c.cfg c.processRecord E.message doc key
      c.cfg.maxRetries.toNat 1 c.cfg.initialBackoffMs []).bind
        (settle c.cfg E.message doc)).run (answer E) h₂ := by
  rw [Handling.pass, iteration, call, Prog.bind_eq, Prog.call_bind, Prog.run_ask]
  simp only [answer, handleMessage, Prog.bind_eq]
  rw [Prog.run_bind, hkey]
  simp only
  rw [Prog.run_bind, hdoc]
  refine congrArg (fun k => ((retryLoop c.cfg c.processRecord E.message doc key
    c.cfg.maxRetries.toNat 1 c.cfg.initialBackoffMs []).bind k).run (answer E) h₂) (funext ?_)
  intro result
  cases result with
  | ok _ => rfl
  | error lastError => rfl

theorem pass_undecoded
    (hkey : (messageKey c.parse E.message).run (answer E) (start s) = (.ok key, h₁))
    (hdoc : (deserialize c.parse E.message.payload).run (answer E) h₁ = (.ok none, h₂)) :
    Handling.pass E c s = (divert c.cfg E.message).run (answer E) h₂ := by
  rw [Handling.pass, iteration, call, Prog.bind_eq, Prog.call_bind, Prog.run_ask]
  simp only [answer, handleMessage, Prog.bind_eq]
  rw [Prog.run_bind, hkey]
  simp only
  rw [Prog.run_bind, hdoc]
  rfl

end Pass

end CdcPipeline.Proofs.RetryRuns
