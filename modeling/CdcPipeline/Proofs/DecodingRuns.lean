import CdcPipeline.Proofs.RunOutline

namespace CdcPipeline.Proofs.DecodingRuns

open Library Text Model KafkaConsumerBase RunOutline

variable {Sink S : Type} {SinkAns : Sink → Type}

/-- What decoding logs. -/
def Complaint : LogEvent → Prop
  | .avroDeserializationFailed _ | .avroToJsonConversionFailed => True
  | .jsonParseFailed _ | .rawPayloadParseFailed _ => True
  | _ => False

/-- Complaints change nothing here. -/
def Unmoved (g : Handler (RunOp Sink) (RunAns SinkAns) S) : Prop :=
  ∀ e s, Complaint e → g (.log e) s = ((), s)

/-- What serdes answers about these bytes, if it is asked about them. -/
def ask (g : Handler (RunOp Sink) (RunAns SinkAns) S) (s : S) : Option Bytes → AvroResult × S
  | some data =>
    if hasMagicByte data then g (.serdesDeserialize data) s else (.conversionFailed, s)
  | none => (.conversionFailed, s)

variable {g : Handler (RunOp Sink) (RunAns SinkAns) S} (parse : Bytes → Except Bytes Json)

/-- What decoding gives is settled by the one answer; where it leaves the surroundings is too,
if complaints change nothing. -/
theorem deserializeAvro_spec (payload : Bytes) (s : S) : ∃ t,
    (deserializeAvro parse payload : RunProg SinkAns (Option Json)).run g s =
      (.ok (decodeAvro parse (g (.serdesDeserialize payload) s).1), t) ∧
    (Unmoved g → t = (g (.serdesDeserialize payload) s).2) := by
  simp only [deserializeAvro, call, Prog.bind_eq, Prog.pure_eq, Prog.call_bind, Prog.run_ask]
  cases (g (.serdesDeserialize payload) s).1 with
  | decodeFailed e =>
    exact ⟨_, rfl, fun hg => congrArg Prod.snd (hg (.avroDeserializationFailed e) _ trivial)⟩
  | conversionFailed =>
    exact ⟨_, rfl, fun hg => congrArg Prod.snd (hg .avroToJsonConversionFailed _ trivial)⟩
  | text json =>
    simp only [decodeAvro]
    cases parse json with
    | ok doc => exact ⟨_, rfl, fun _ => rfl⟩
    | error what =>
      exact ⟨_, rfl, fun hg => congrArg Prod.snd (hg (.jsonParseFailed what) _ trivial)⟩

theorem deserialize_spec (payload : Option Bytes) (s : S) : ∃ t,
    (deserialize parse payload : RunProg SinkAns (Option Json)).run g s =
      (.ok (decode parse (ask g s payload).1 payload), t) ∧
    (Unmoved g → t = (ask g s payload).2) := by
  match payload with
  | none => exact ⟨_, rfl, fun _ => rfl⟩
  | some [] => exact ⟨_, rfl, fun _ => rfl⟩
  | some (b :: bs) =>
    simp only [deserialize, decode, ask]
    by_cases hm : hasMagicByte (b :: bs) = true
    · simp only [hm, if_true]
      exact deserializeAvro_spec parse (b :: bs) s
    · simp only [hm, Bool.false_eq_true, if_false]
      cases parse (b :: bs) with
      | ok doc => exact ⟨_, rfl, fun _ => rfl⟩
      | error what =>
        exact ⟨_, rfl, fun hg => congrArg Prod.snd (hg (.rawPayloadParseFailed what) _ trivial)⟩

theorem decodedKey_spec (raw : Bytes) (s : S) : ∃ t,
    (decodedKey parse raw : RunProg SinkAns Bytes).run g s =
      (decodeKey parse (ask g s (some raw)).1 raw, t) ∧
    (Unmoved g → t = (ask g s (some raw)).2) := by
  unfold decodedKey decodeKey
  by_cases hm : hasMagicByte raw = true
  · simp only [hm, if_true]
    obtain ⟨t, hr, ht⟩ := deserialize_spec (g := g) parse (some raw) s
    rw [Prog.bind_eq, Prog.run_bind, hr]
    cases decode parse (ask g s (some raw)).1 (some raw) with
    | none => exact ⟨t, rfl, ht⟩
    | some doc =>
      simp only
      cases keyDocText doc with
      | ok key => exact ⟨t, rfl, ht⟩
      | error what => exact ⟨t, rfl, ht⟩
  · simp only [hm, Bool.false_eq_true, if_false, ask]
    exact ⟨s, rfl, fun _ => rfl⟩

theorem messageKey_spec (m : Message) (s : S) : ∃ t,
    (messageKey parse m : RunProg SinkAns Bytes).run g s =
      (keyOf parse (ask g s m.key).1 m.key, t) ∧
    (Unmoved g → t = (ask g s m.key).2) := by
  unfold messageKey
  match m.key with
  | none => exact ⟨s, rfl, fun _ => rfl⟩
  | some [] => exact ⟨s, rfl, fun _ => rfl⟩
  | some (b :: bs) =>
    obtain ⟨t, hr, ht⟩ := decodedKey_spec (g := g) parse (b :: bs) s
    simp only [keyOf]
    rw [Prog.bind_eq, Prog.run_bind, hr]
    cases decodeKey parse (ask g s (some (b :: bs))).1 (b :: bs) with
    | ok key => exact ⟨t, rfl, ht⟩
    | error what => exact ⟨t, rfl, ht⟩

variable {parse}

theorem result_deserialize (payload : Option Bytes) (s : S) :
    ((deserialize parse payload : RunProg SinkAns (Option Json)).run g s).1 =
      .ok (decode parse (ask g s payload).1 payload) := by
  obtain ⟨t, hr, -⟩ := deserialize_spec (g := g) parse payload s
  rw [hr]

theorem result_messageKey (m : Message) (s : S) :
    ((messageKey parse m : RunProg SinkAns Bytes).run g s).1 =
      keyOf parse (ask g s m.key).1 m.key := by
  obtain ⟨t, hr, -⟩ := messageKey_spec (g := g) parse m s
  rw [hr]

theorem run_deserialize (hg : Unmoved g) (payload : Option Bytes) (s : S) :
    (deserialize parse payload : RunProg SinkAns (Option Json)).run g s =
      (.ok (decode parse (ask g s payload).1 payload), (ask g s payload).2) := by
  obtain ⟨t, hr, ht⟩ := deserialize_spec (g := g) parse payload s
  rw [hr, ht hg]

theorem run_messageKey (hg : Unmoved g) (m : Message) (s : S) :
    (messageKey parse m : RunProg SinkAns Bytes).run g s =
      (keyOf parse (ask g s m.key).1 m.key, (ask g s m.key).2) := by
  obtain ⟨t, hr, ht⟩ := messageKey_spec (g := g) parse m s
  rw [hr, ht hg]

end CdcPipeline.Proofs.DecodingRuns
