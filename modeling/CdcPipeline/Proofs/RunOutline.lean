import CdcPipeline.Library.Outline
import CdcPipeline.Model.KafkaConsumerBase

namespace CdcPipeline.Proofs.RunOutline

open Library Text Model KafkaConsumerBase

section Decoding

variable (parse : Bytes → Except Bytes Json)

def decodeAvro : AvroResult → Option Json
  | .text json => some ((parse json).toOption.getD .null)
  | _ => none

/-- What `Deserialize` returns when the registry's answer is `avro`. -/
def decode (avro : AvroResult) : Option Bytes → Option Json
  | none | some [] => none
  | some payload =>
    if hasMagicByte payload then decodeAvro parse avro else (parse payload).toOption

def decodeKey (avro : AvroResult) (raw : Bytes) : Except Bytes Bytes :=
  if hasMagicByte raw then
    match decode parse avro (some raw) with
    | some doc => keyDocText doc
    | none => .ok []
  else .ok []

/-- The key `ProcessRecord` is given when the registry's answer is `avro`. -/
def keyOf (avro : AvroResult) : Option Bytes → Except Bytes Bytes
  | none | some [] => .ok []
  | some raw => (decodeKey parse avro raw).map (fun key => if key = [] then raw else key)

variable {parse} in
theorem decode_utf8 (hparse : ∀ s j, parse s = .ok j → j.utf8 = true) {avro : AvroResult}
    {payload : Option Bytes} {doc : Json} (h : decode parse avro payload = some doc) :
    doc.utf8 = true := by
  have ok : ∀ s, (parse s).toOption = some doc → doc.utf8 = true := by
    intro s hs
    cases hp : parse s with
    | error e => simp [hp, Except.toOption] at hs
    | ok j =>
      simp only [hp, Except.toOption, Option.some.injEq] at hs
      exact hs ▸ hparse s j hp
  rcases payload with _ | _ | ⟨b, bs⟩
  · simp [decode] at h
  · simp [decode] at h
  · simp only [decode] at h
    split at h
    · cases avro with
      | text json =>
        simp only [decodeAvro, Option.some.injEq] at h
        cases hp : parse json with
        | error e =>
          simp only [hp, Except.toOption, Option.getD_none] at h
          exact h ▸ rfl
        | ok j =>
          simp only [hp, Except.toOption, Option.getD_some] at h
          exact h ▸ hparse json j hp
      | decodeFailed e => simp [decodeAvro] at h
      | conversionFailed => simp [decodeAvro] at h
    · exact ok _ h

theorem keyDocText_ok {doc : Json} (h : doc.utf8 = true) : ∃ key, keyDocText doc = .ok key := by
  unfold keyDocText
  cases hid : doc.nonNull (bytes "id") with
  | some v => exact Record.textOf_ok (Json.utf8_nonNull h hid)
  | none =>
    cases ho : doc.nonNull (bytes "order_id") with
    | some v => exact Record.textOf_ok (Json.utf8_nonNull h ho)
    | none => exact (Json.dump_ok_iff doc).mpr h

variable {parse} in
/-- No key stops the loop: what a decoded key dumps was parsed. -/
theorem keyOf_ok (hparse : ∀ s j, parse s = .ok j → j.utf8 = true) (avro : AvroResult)
    (key : Option Bytes) : ∃ k, keyOf parse avro key = .ok k := by
  rcases key with _ | _ | ⟨b, bs⟩
  · exact ⟨[], rfl⟩
  · exact ⟨[], rfl⟩
  · have hkey : ∃ k, decodeKey parse avro (b :: bs) = .ok k := by
      unfold decodeKey
      split
      · cases hd : decode parse avro (some (b :: bs)) with
        | none => exact ⟨[], rfl⟩
        | some doc => exact keyDocText_ok (decode_utf8 hparse hd)
      · exact ⟨[], rfl⟩
    obtain ⟨k, hk⟩ := hkey
    exact ⟨if k = [] then b :: bs else k, by simp only [keyOf, hk, Except.map]⟩

variable (serdes : Bytes → AvroResult → Prop)

/-- An answer of the registry about these bytes, if they ask for one. -/
def Answers (data : Option Bytes) (avro : AvroResult) : Prop :=
  ∀ bs, data = some bs → hasMagicByte bs = true → serdes bs avro

def Decodes (payload : Option Bytes) (doc : Option Json) : Prop :=
  ∃ avro, Answers serdes payload avro ∧ decode parse avro payload = doc

def Keys (m : Message) (key : Bytes) : Prop :=
  ∃ avro, Answers serdes m.key avro ∧ keyOf parse avro m.key = .ok key

end Decoding

variable {ι Sink σ : Type} {SinkAns : Sink → Type}

abbrev RunMachine (ι : Type) {Sink : Type} (SinkAns : Sink → Type) (σ : Type) :=
  Machine ι (RunOp Sink) (RunAns SinkAns) Bytes Node σ

/-- The calls that decide nothing about a message. -/
def Muted {Sink : Type} : RunOp Sink → Prop
  | .loadRunning | .serdesDeserialize _ | .sleepFor _ | .systemClock | .hasProducer => True
  | .poll _ | .flush _ | .close => True
  | .log (.unparseablePayloadRoutingDlq _) | .log (.retriesExhaustedRoutingDlq ..) => False
  | .log (.recordProcessed _) | .log (.routedToDlq ..) => False
  | .log _ => True
  | _ => False

/-- The calls that change nothing, and what the registry's answers may be. -/
structure Quiet (O : Outline ι Node σ) (M : RunMachine ι SinkAns σ) (i : ι)
    (serdes : Bytes → AvroResult → Prop) : Prop where
  refl : ∀ j s, O.rely j s s
  still : ∀ op s a s', Muted op → M.call i op s a s' → s' = s
  registry : ∀ data s a s', M.call i (.serdesDeserialize data) s a s' → serdes data a

namespace Quiet

variable {O : Outline ι Node σ} {M : RunMachine ι SinkAns σ} {i : ι}
  {parse : Bytes → Except Bytes Json}
  {serdes : Bytes → AvroResult → Prop} {P : σ → Prop}

theorem safe_still (hq : Quiet O M i serdes) (stable : O.Stable i P) {α : Type}
    {o : RunOp Sink} (ho : Muted o) {k : RunAns SinkAns o → RunProg SinkAns α}
    {Q : α → σ → Prop} {X : Bytes → σ → Prop} {s : σ} (hs : P s)
    (hk : ∀ a t t', O.inv t → P t → M.call i o t a t' → O.safe M i (k a) Q X t) :
    O.safe M i (.ask o k) Q X s :=
  Outline.safe_still hq.refl (fun s a s' => hq.still o s a s' ho) stable hs hk

/-- The same, when the answer says nothing. -/
theorem safe_skip (hq : Quiet O M i serdes) (stable : O.Stable i P) {α : Type}
    {o : RunOp Sink} (ho : Muted o) {k : RunAns SinkAns o → RunProg SinkAns α}
    {Q : α → σ → Prop} {X : Bytes → σ → Prop} {s : σ} (hs : P s)
    (hk : ∀ a t, P t → O.safe M i (k a) Q X t) : O.safe M i (.ask o k) Q X s :=
  hq.safe_still stable ho hs (fun a t _ _ ht _ => hk a t ht)

theorem safe_deserializeAvro (hq : Quiet O M i serdes) (stable : O.Stable i P) {s : σ}
    {data : Bytes} {X : Bytes → σ → Prop} (hs : P s) :
    O.safe M i (deserializeAvro parse data)
      (fun doc t => P t ∧ ∃ avro, serdes data avro ∧ decodeAvro parse avro = doc) X s := by
  simp only [deserializeAvro, call, Prog.bind_eq, Prog.pure_eq, Prog.call_bind]
  apply hq.safe_still stable (o := .serdesDeserialize data) trivial hs
  intro avro t t' hi ht hc
  have hans := hq.registry data t avro t' hc
  cases avro with
  | decodeFailed e =>
    apply hq.safe_skip stable (o := .log (.avroDeserializationFailed e)) trivial ht
    exact fun _ u hu => ⟨hu, _, hans, rfl⟩
  | conversionFailed =>
    apply hq.safe_skip stable (o := .log .avroToJsonConversionFailed) trivial ht
    exact fun _ u hu => ⟨hu, _, hans, rfl⟩
  | text json =>
    cases hp : parse json with
    | ok doc =>
      simp only [hp]
      exact ⟨ht, _, hans, by simp [decodeAvro, hp, Except.toOption]⟩
    | error what =>
      simp only [hp]
      apply hq.safe_skip stable (o := .log (.jsonParseFailed what)) trivial ht
      exact fun _ u hu => ⟨hu, _, hans, by simp [decodeAvro, hp, Except.toOption]⟩

theorem safe_deserialize (hq : Quiet O M i serdes) (stable : O.Stable i P) {s : σ}
    {payload : Option Bytes} {X : Bytes → σ → Prop} (hs : P s) :
    O.safe M i (deserialize parse payload)
      (fun doc t => P t ∧ Decodes parse serdes payload doc) X s := by
  have noAnswer : ∀ bs, hasMagicByte bs = false → Answers serdes (some bs) .conversionFailed := by
    intro bs hb bs' he hm
    obtain rfl := Option.some.inj he
    rw [hb] at hm
    contradiction
  match payload with
  | none => exact ⟨hs, .conversionFailed, fun _ he => by contradiction, rfl⟩
  | some [] => exact ⟨hs, .conversionFailed, noAnswer [] rfl, rfl⟩
  | some (b :: bs) =>
    by_cases hm : hasMagicByte (b :: bs) = true
    · simp only [deserialize, hm, if_true]
      refine Outline.safe_mono ?_ (fun _ _ hx => hx) (hq.safe_deserializeAvro stable hs)
      intro doc t ⟨ht, avro, hans, hd⟩
      refine ⟨ht, avro, ?_, by simp only [decode, hm, if_true, hd]⟩
      intro bs' he _
      exact Option.some.inj he ▸ hans
    · have hb := Bool.eq_false_iff.mpr hm
      simp only [deserialize, hb, Bool.false_eq_true, if_false]
      cases hp : parse (b :: bs) with
      | ok doc =>
        exact ⟨hs, .conversionFailed, noAnswer _ hb, by simp [decode, hb, hp, Except.toOption]⟩
      | error what =>
        apply hq.safe_skip stable (o := .log (.rawPayloadParseFailed what)) trivial hs
        intro _ t ht
        exact ⟨ht, .conversionFailed, noAnswer _ hb, by simp [decode, hb, hp, Except.toOption]⟩

theorem safe_decodedKey (hq : Quiet O M i serdes) (stable : O.Stable i P) {s : σ} {raw : Bytes}
    (hs : P s) : O.safe M i (decodedKey parse raw)
      (fun key t => P t ∧ ∃ avro, Answers serdes (some raw) avro ∧
        decodeKey parse avro raw = .ok key) (fun _ _ => True) s := by
  by_cases hm : hasMagicByte raw = true
  · simp only [decodedKey, hm, if_true, Prog.bind_eq, Prog.pure_eq]
    apply Outline.safe_seq (hq.safe_deserialize stable hs)
    intro doc t ⟨ht, avro, hans, hd⟩
    cases doc with
    | none => exact ⟨ht, avro, hans, by simp [decodeKey, hm, hd]⟩
    | some doc =>
      apply Outline.safe_ofExcept
      · intro key hk
        exact ⟨ht, avro, hans, by simpa [decodeKey, hm, hd] using hk⟩
      · exact fun _ _ => trivial
  · have hb := Bool.eq_false_iff.mpr hm
    simp only [decodedKey, hb, Bool.false_eq_true, if_false, Prog.pure_eq]
    refine ⟨hs, .conversionFailed, ?_, by simp [decodeKey, hb]⟩
    intro bs he hm'
    obtain rfl := Option.some.inj he
    contradiction

theorem safe_messageKey (hq : Quiet O M i serdes) (stable : O.Stable i P) {s : σ} {m : Message}
    (hs : P s) : O.safe M i (messageKey parse m)
      (fun key t => P t ∧ Keys parse serdes m key) (fun _ _ => True) s := by
  unfold messageKey Keys
  match hk : m.key with
  | none => exact ⟨hs, .conversionFailed, fun _ he => by contradiction, rfl⟩
  | some [] =>
    refine ⟨hs, .conversionFailed, ?_, rfl⟩
    intro bs he hm
    obtain rfl := Option.some.inj he
    contradiction
  | some (b :: bs) =>
    apply Outline.safe_seq (hq.safe_decodedKey stable hs)
    intro key t ⟨ht, avro, hans, hd⟩
    exact ⟨ht, avro, hans, by simp [keyOf, hd, Except.map]⟩

theorem safe_backOff (hq : Quiet O M i serdes) (stable : O.Stable i P) {cfg : Config}
    {attempt backoffMs : Int} {X : Bytes → σ → Prop} {s : σ} (hs : P s) :
    O.safe M i (backOff cfg attempt backoffMs) (fun _ => P) X s := by
  unfold backOff
  split
  · apply hq.safe_skip stable (o := .loadRunning) trivial hs
    intro b t ht
    cases b with
    | false => exact ht
    | true =>
      apply hq.safe_skip stable (o := .sleepFor backoffMs) trivial ht
      exact fun _ u hu => hu
  · exact hs

end Quiet

/-- Where a pass is, as finely as any proof looks at it: how often its record has thrown,
whether it was stopped or every attempt was made, and for which reason it is diverted. -/
inductive Point where
  | fresh | idle | ready | closing
  | fetched (m : Message)
  | trying (m : Message) (failed : Nat)
  | ran (m : Message) | done (m : Message) | halted (m : Message) | spent (m : Message)
  | divert (m : Message) (site : CommitSite) | queued (m : Message) (site : CommitSite)
  | flushed (m : Message) (site : CommitSite) | diverted (m : Message) (site : CommitSite)

def pointOf : Node → Point
  | .start => .fresh
  | .head => .idle
  | .closing | .returned => .closing

/-- An assertion for every point of thread `i`, and what each call of `Run` owes it. -/
structure Staged (O : Outline ι Node σ) (M : RunMachine ι SinkAns σ) (i : ι)
    (c : Consumer Sink SinkAns) (serdes : Bytes → AvroResult → Prop) (A : Point → σ → Prop) :
    Prop where
  quiet : Quiet O M i serdes
  stable : ∀ p, O.Stable i (A p)
  start : O.Call M i (.storeRunning true) (A .fresh) (fun _ => A .idle)
  load : ∀ s b s', O.inv s → A .idle s → M.call i .loadRunning s b s' →
    A (if b then .ready else .closing) s
  consume : O.Call M i (.consume 1000) (A .ready)
    (fun d => match d with | .message m => A (.fetched m) | _ => A .idle)
  decoded : ∀ m doc s, Decodes c.parse serdes m.payload (some doc) → A (.fetched m) s →
    A (.trying m 0) s
  unparseable : ∀ m, Decodes c.parse serdes m.payload none →
    O.Call M i (.log (.unparseablePayloadRoutingDlq m)) (A (.fetched m))
      (fun _ => A (.divert m .unparseable))
  process : ∀ m n doc key s, n < c.cfg.maxRetries.toNat →
    Decodes c.parse serdes m.payload (some doc) → Keys c.parse serdes m key → A (.trying m n) s →
    O.safe M i (process c.processRecord doc key m) (fun _ => A (.ran m))
      (fun _ => A (.trying m (n + 1))) s
  stopped : ∀ m n s s', n < c.cfg.maxRetries.toNat → O.inv s → A (.trying m n) s →
    M.call i .loadRunning s false s' → A (.halted m) s
  ended : ∀ m s b s', O.inv s → A (.halted m) s ∨ A (.trying m c.cfg.maxRetries.toNat) s →
    M.call i .loadRunning s b s' → A (if b then .spent m else .idle) s
  processed : ∀ m, O.Call M i (.log (.recordProcessed m)) (A (.ran m)) (fun _ => A (.done m))
  exhausted : ∀ m e, O.Call M i (.log (.retriesExhaustedRoutingDlq m e)) (A (.spent m))
    (fun _ => A (.divert m .exhausted))
  noProducer : ∀ m site s s', O.inv s → A (.divert m site) s → M.call i .hasProducer s false s' →
    A (.diverted m site) s
  produce : ∀ m site topic body key, O.Call M i (.produce m topic body key) (A (.divert m site))
    (fun r => match r with | .ok _ => A (.queued m site) | .error _ => A (.diverted m site))
  flush : ∀ m site s a s', O.inv s → A (.queued m site) s → M.call i (.flush 1000) s a s' →
    A (.flushed m site) s
  routed : ∀ topic m e site, O.Call M i (.log (.routedToDlq topic m e)) (A (.flushed m site))
    (fun _ => A (.diverted m site))
  committed : ∀ m, O.Call M i (.commitSync m .processed) (A (.done m)) (fun _ => A .idle)
  dropped : ∀ m site, site ≠ .processed →
    O.Call M i (.commitSync m site) (A (.diverted m site)) (fun _ => A .idle)

namespace Staged

variable {O : Outline ι Node σ} {M : RunMachine ι SinkAns σ} {i : ι}
  {c : Consumer Sink SinkAns} {serdes : Bytes → AvroResult → Prop} {A : Point → σ → Prop}

theorem safe_skip (hp : Staged O M i c serdes A) {α : Type} {p : Point} {o : RunOp Sink}
    (ho : Muted o) {k : RunAns SinkAns o → RunProg SinkAns α} {Q : α → σ → Prop}
    {X : Bytes → σ → Prop} {s : σ} (hs : A p s) (hk : ∀ a t, A p t → O.safe M i (k a) Q X t) :
    O.safe M i (.ask o k) Q X s :=
  hp.quiet.safe_skip (hp.stable p) ho hs hk

theorem safe_still (hp : Staged O M i c serdes A) {α : Type} {p : Point} {o : RunOp Sink}
    (ho : Muted o) {k : RunAns SinkAns o → RunProg SinkAns α} {Q : α → σ → Prop}
    {X : Bytes → σ → Prop} {s : σ} (hs : A p s)
    (hk : ∀ a t t', O.inv t → A p t → M.call i o t a t' → O.safe M i (k a) Q X t) :
    O.safe M i (.ask o k) Q X s :=
  hp.quiet.safe_still (hp.stable p) ho hs hk

theorem safe_routeToDlq (hp : Staged O M i c serdes A) {m : Message} {site : CommitSite}
    {reason : Bytes} {doc : Json} {s : σ} (hs : A (.divert m site) s) :
    O.safe M i (routeToDlq c.cfg m reason doc) (fun _ => A (.diverted m site))
      (fun _ _ => True) s := by
  simp only [routeToDlq, call, Prog.bind_eq, Prog.pure_eq, Prog.call_bind]
  apply hp.safe_still (o := .hasProducer) trivial hs
  intro b t t' hi ht hc
  cases b with
  | false =>
    simp only [Bool.false_eq_true, if_false]
    have hnone := hp.noProducer m site t t' hi ht hc
    apply hp.safe_skip (o := .log .dlqProducerUnavailable) trivial hnone
    exact fun _ u hu => hu
  | true =>
    simp only [if_true]
    apply hp.safe_skip (o := .systemClock) trivial ht
    intro now u hu
    apply Outline.safe_seq (Q := fun _ => A (.divert m site))
      (Outline.safe_ofExcept (fun _ _ => hu) (fun _ _ => trivial))
    intro body v hv
    apply Outline.safe_ask (hp.stable _) (hp.produce m site _ body _) hv
    intro r w hw
    cases r with
    | error e =>
      apply hp.safe_skip (o := .log (.dlqProduceFailed e)) trivial hw
      exact fun _ x hx => hx
    | ok _ =>
      apply hp.safe_skip (o := .poll 0) trivial hw
      intro _ x hx
      apply hp.safe_still (o := .flush 1000) trivial hx
      intro _ y y' hi hy hc
      have hflushed := hp.flush m site y _ y' hi hy hc
      apply Outline.safe_ask (hp.stable _) (hp.routed _ m reason site) hflushed
      exact fun _ z hz => hz

/-- The message goes to the dead letters and is committed. -/
theorem safe_divert (hp : Staged O M i c serdes A) {m : Message} {reason : Bytes} {doc : Json}
    {site : CommitSite} (hsite : site ≠ .processed) {s : σ} (hs : A (.divert m site) s) :
    O.safe M i (do let _ ← routeToDlq c.cfg m reason doc; call (.commitSync m site))
      (fun _ => A .idle) (fun _ _ => True) s := by
  apply Outline.safe_seq (hp.safe_routeToDlq hs)
  intro _ t ht
  apply Outline.safe_ask (hp.stable _) (hp.dropped m site hsite) ht
  exact fun _ u hu => hu

/-- One attempt: its record is done, or has thrown once more. -/
theorem safe_attempt (hp : Staged O M i c serdes A) {m : Message} {n : Nat} {doc : Json}
    {key : Bytes} (hn : n < c.cfg.maxRetries.toNat)
    (hd : Decodes c.parse serdes m.payload (some doc)) (hk : Keys c.parse serdes m key) {s : σ}
    (hs : A (.trying m n) s) :
    O.safe M i
      (do KafkaConsumerBase.process c.processRecord doc key m; call (.log (.recordProcessed m)))
      (fun _ => A (.done m)) (fun _ => A (.trying m (n + 1))) s := by
  apply Outline.safe_seq (hp.process m n doc key s hn hd hk hs)
  intro _ t ht
  apply Outline.safe_ask (hp.stable _) (hp.processed m) ht
  exact fun _ u hu => hu

/-- The retry loop, by induction on the attempts left: it ends with a record that is done,
with every attempt made, or because it was stopped. -/
theorem safe_retryLoop (hp : Staged O M i c serdes A) {m : Message} {doc : Json} {key : Bytes}
    (hd : Decodes c.parse serdes m.payload (some doc)) (hk : Keys c.parse serdes m key)
    (left n : Nat) (hn : n + left = c.cfg.maxRetries.toNat) (attempt backoffMs : Int)
    (lastError : Bytes) {s : σ} (hs : A (.trying m n) s) :
    O.safe M i (retryLoop c.cfg c.processRecord m doc key left attempt backoffMs lastError)
      (fun r t => match r with
        | .ok _ => A (.done m) t
        | .error _ => A (.halted m) t ∨ A (.trying m c.cfg.maxRetries.toNat) t)
      (fun _ _ => True) s := by
  induction left generalizing n attempt backoffMs lastError s with
  | zero =>
    obtain rfl : n = c.cfg.maxRetries.toNat := hn
    exact Or.inr hs
  | succ left ih =>
    have hlt : n < c.cfg.maxRetries.toNat := by omega
    apply hp.safe_still (o := .loadRunning) trivial hs
    intro b t t' hi ht hload
    cases b with
    | false => exact Or.inl (hp.stopped m n t t' hlt hi ht hload)
    | true =>
      apply Outline.safe_seq (Outline.safe_attempt (hp.safe_attempt hlt hd hk ht))
      intro r u hu
      cases r with
      | ok _ => exact hu
      | error what =>
        apply hp.safe_skip (o := .log (.recordProcessingFailed attempt _ m what)) trivial hu
        intro _ v hv
        apply Outline.safe_seq (hp.quiet.safe_backOff (hp.stable _) hv)
        intro backoffMs' w hw
        exact ih (n + 1) (by omega) _ _ _ hw

/-- The flag is read once more behind the attempts that did not help. -/
theorem safe_ended (hp : Staged O M i c serdes A) {m : Message} {doc : Json} {lastError : Bytes}
    {s : σ} (hs : A (.halted m) s ∨ A (.trying m c.cfg.maxRetries.toNat) s) :
    O.safe M i (do
        if ← call .loadRunning then
          call (.log (.retriesExhaustedRoutingDlq m lastError))
          let _ ← routeToDlq c.cfg m lastError doc
          call (.commitSync m .exhausted))
      (fun _ => A .idle) (fun _ _ => True) s := by
  have stable : O.Stable i (fun t => A (.halted m) t ∨ A (.trying m c.cfg.maxRetries.toNat) t) :=
    fun t t' hr => Or.imp (hp.stable _ t t' hr) (hp.stable _ t t' hr)
  apply hp.quiet.safe_still stable (o := .loadRunning) trivial hs
  intro b t t' hi ht hload
  have hended := hp.ended m t b t' hi ht hload
  cases b with
  | false => exact hended
  | true =>
    apply Outline.safe_ask (hp.stable _) (hp.exhausted m lastError) hended
    exact fun _ u hu => hp.safe_divert (by decide) hu

theorem safe_handleMessage (hp : Staged O M i c serdes A) {m : Message} {s : σ}
    (hs : A (.fetched m) s) :
    O.safe M i (handleMessage c.parse c.cfg c.processRecord m) (fun _ => A .idle)
      (fun _ _ => True) s := by
  apply Outline.safe_seq (hp.quiet.safe_messageKey (hp.stable _) hs)
  intro key t ⟨ht, hkey⟩
  apply Outline.safe_seq (hp.quiet.safe_deserialize (hp.stable _) ht)
  intro doc u ⟨hu, hdoc⟩
  cases doc with
  | none =>
    apply Outline.safe_ask (hp.stable _) (hp.unparseable m hdoc) hu
    exact fun _ v hv => hp.safe_divert (by decide) hv
  | some doc =>
    have htrying := hp.decoded m doc u hdoc hu
    apply Outline.safe_seq (hp.safe_retryLoop hdoc hkey _ 0 (Nat.zero_add _) 1 _ [] htrying)
    intro r v hv
    cases r with
    | ok _ =>
      apply Outline.safe_ask (hp.stable _) (hp.committed m) hv
      exact fun _ w hw => hw
    | error lastError => exact hp.safe_ended hv

theorem safe_iteration (hp : Staged O M i c serdes A) {s : σ} (hs : A .ready s) :
    O.safe M i (iteration c.parse c.cfg c.processRecord) (fun _ => A .idle)
      (fun _ _ => True) s := by
  apply Outline.safe_ask (hp.stable _) hp.consume hs
  intro d t ht
  cases d with
  | message m => exact hp.safe_handleMessage ht
  | failed e =>
    apply hp.safe_skip (o := .log (.kafkaConsumerWarning e)) trivial ht
    exact fun _ u hu => hu
  | null => exact ht
  | timedOut => exact ht
  | partitionEof => exact ht

theorem safe_closing (hp : Staged O M i c serdes A) {s : σ} (hs : A .closing s) :
    O.safe M i (c.run .closing) (fun n => A (pointOf n)) (fun _ _ => True) s := by
  apply hp.safe_skip (o := .close) trivial hs
  intro _ t ht
  apply hp.safe_skip (o := .hasProducer) trivial ht
  intro b u hu
  have stop : ∀ v, A .closing v → O.safe M i
      (Prog.ask (.log .consumerStopped) (fun _ => .ret .returned) : RunProg SinkAns Node)
      (fun n => A (pointOf n)) (fun _ _ => True) v := by
    intro v hv
    apply hp.safe_skip (o := .log .consumerStopped) trivial hv
    exact fun _ w hw => hw
  cases b with
  | false => exact stop u hu
  | true =>
    apply hp.safe_skip (o := .flush 2000) trivial hu
    exact fun _ v hv => stop v hv

/-- What every node of `Run` owes the outline. -/
theorem safe_run (hp : Staged O M i c serdes A) (n : Node) {s : σ} (hs : A (pointOf n) s) :
    O.safe M i (c.run n) (fun n => A (pointOf n)) (fun _ _ => True) s := by
  cases n with
  | start =>
    apply Outline.safe_ask (hp.stable _) hp.start hs
    exact fun _ t ht => ht
  | head =>
    apply hp.safe_still (o := .loadRunning) trivial hs
    intro b t t' hi ht hload
    have hnext := hp.load t b t' hi ht hload
    cases b with
    | false => exact hnext
    | true =>
      apply Outline.safe_seq (hp.safe_iteration hnext)
      exact fun _ u hu => hu
  | closing => exact hp.safe_closing hs
  | returned => exact hs

end Staged

inductive Stage where
  | fresh | idle | ready | closing
  | busy (m : Message) | ran (m : Message) | done (m : Message)
  | divert (m : Message) | queued (m : Message) | flushed (m : Message) | diverted (m : Message)

def stageOf : Node → Stage
  | .start => .fresh
  | .head => .idle
  | .closing | .returned => .closing

/-- The stage a point belongs to. -/
def stageAt : Point → Stage
  | .fresh => .fresh
  | .idle => .idle
  | .ready => .ready
  | .closing => .closing
  | .fetched m | .trying m _ | .halted m | .spent m => .busy m
  | .ran m => .ran m
  | .done m => .done m
  | .divert m _ => .divert m
  | .queued m _ => .queued m
  | .flushed m _ => .flushed m
  | .diverted m _ => .diverted m

theorem stageAt_pointOf (n : Node) : stageAt (pointOf n) = stageOf n := by
  cases n <;> rfl

/-- The calls that change nothing a run is judged by. -/
def Still {Sink : Type} : RunOp Sink → Prop
  | .storeRunning _ | .consume _ | .sink _ | .produce .. | .commitSync .. => False
  | .log (.recordProcessed _) | .log (.routedToDlq ..) => False
  | _ => True

/-- An assertion for every stage of thread `i`, and what each call of `Run` owes it. -/
structure Annotated (O : Outline ι Node σ) (M : RunMachine ι SinkAns σ) (i : ι)
    (c : Consumer Sink SinkAns) (serdes : Bytes → AvroResult → Prop) (A : Stage → σ → Prop) :
    Prop where
  refl : ∀ j s, O.rely j s s
  stable : ∀ st, O.Stable i (A st)
  still : ∀ op s a s', Still op → M.call i op s a s' → s' = s
  registry : ∀ data s a s', M.call i (.serdesDeserialize data) s a s' → serdes data a
  start : O.Call M i (.storeRunning true) (A .fresh) (fun _ => A .idle)
  load : ∀ s b s', O.inv s → A .idle s → M.call i .loadRunning s b s' →
    A (if b then .ready else .closing) s
  consume : O.Call M i (.consume 1000) (A .ready)
    (fun d => match d with | .message m => A (.busy m) | _ => A .idle)
  stopped : ∀ m s s', O.inv s → A (.busy m) s → M.call i .loadRunning s false s' → A .idle s
  process : ∀ m doc key s, Decodes c.parse serdes m.payload (some doc) →
    Keys c.parse serdes m key → A (.busy m) s →
    O.safe M i (process c.processRecord doc key m) (fun _ => A (.ran m)) (fun _ => A (.busy m)) s
  processed : ∀ m, O.Call M i (.log (.recordProcessed m)) (A (.ran m)) (fun _ => A (.done m))
  unparseable : ∀ m s a s', Decodes c.parse serdes m.payload none → O.inv s → A (.busy m) s →
    M.call i (.log (.unparseablePayloadRoutingDlq m)) s a s' → A (.divert m) s
  exhausted : ∀ m e s a s', O.inv s → A (.busy m) s →
    M.call i (.log (.retriesExhaustedRoutingDlq m e)) s a s' → A (.divert m) s
  noProducer : ∀ m s s', O.inv s → A (.divert m) s → M.call i .hasProducer s false s' →
    A (.diverted m) s
  produce : ∀ m topic body key, O.Call M i (.produce m topic body key) (A (.divert m))
    (fun r => match r with | .ok _ => A (.queued m) | .error _ => A (.diverted m))
  flush : ∀ m s a s', O.inv s → A (.queued m) s → M.call i (.flush 1000) s a s' →
    A (.flushed m) s
  routed : ∀ topic m e, O.Call M i (.log (.routedToDlq topic m e)) (A (.flushed m))
    (fun _ => A (.diverted m))
  committed : ∀ m, O.Call M i (.commitSync m .processed) (A (.done m)) (fun _ => A .idle)
  dropped : ∀ m site, site ≠ .processed →
    O.Call M i (.commitSync m site) (A (.diverted m)) (fun _ => A .idle)

namespace Annotated

variable {O : Outline ι Node σ} {M : RunMachine ι SinkAns σ} {i : ι}
  {c : Consumer Sink SinkAns} {serdes : Bytes → AvroResult → Prop} {A : Stage → σ → Prop}

theorem still_of_muted {op : RunOp Sink} (h : Muted op) : Still op := by
  cases op with
  | log e => cases e <;> trivial
  | _ => trivial

theorem quiet (ha : Annotated O M i c serdes A) : Quiet O M i serdes :=
  ⟨ha.refl, fun op s a s' h => ha.still op s a s' (still_of_muted h), ha.registry⟩

theorem call_still (ha : Annotated O M i c serdes A) {o : RunOp Sink} (ho : Still o)
    {P : σ → Prop} {Q : RunAns SinkAns o → σ → Prop}
    (h : ∀ s a s', O.inv s → P s → M.call i o s a s' → Q a s) : O.Call M i o P Q := by
  intro s a s' hi hs hc
  obtain rfl := ha.still o s a s' ho hc
  exact ⟨hi, fun j _ => ha.refl j s', h s' a s' hi hs hc⟩

/-- A message is busy until its record has run or the attempts are over. -/
theorem staged (ha : Annotated O M i c serdes A) :
    Staged O M i c serdes (fun p => A (stageAt p)) where
  quiet := ha.quiet
  stable p := ha.stable (stageAt p)
  start := ha.start
  load s b s' hi hs hc := by
    have hnext := ha.load s b s' hi hs hc
    cases b with
    | _ => exact hnext
  consume s d s' hi hs hc := by
    obtain ⟨hinv, hothers, hd⟩ := ha.consume s d s' hi hs hc
    refine ⟨hinv, hothers, ?_⟩
    cases d with
    | _ => exact hd
  decoded m doc s hd hs := hs
  unparseable m hd := by
    refine ha.call_still (o := .log (.unparseablePayloadRoutingDlq m)) trivial ?_
    exact fun s a s' => ha.unparseable m s a s' hd
  process m n doc key s hn hd hk hs := ha.process m doc key s hd hk hs
  stopped m n s s' hn hi hs hc := hs
  ended m s b s' hi hs hc := by
    have hbusy : A (.busy m) s := or_self_iff.mp hs
    cases b with
    | false => exact ha.stopped m s s' hi hbusy hc
    | true => exact hbusy
  processed := ha.processed
  exhausted m e :=
    ha.call_still (o := .log (.retriesExhaustedRoutingDlq m e)) trivial (ha.exhausted m e)
  noProducer m site := ha.noProducer m
  produce m site topic body key s r s' hi hs hc := by
    obtain ⟨hinv, hothers, hr⟩ := ha.produce m topic body key s r s' hi hs hc
    refine ⟨hinv, hothers, ?_⟩
    cases r with
    | _ => exact hr
  flush m site := ha.flush m
  routed topic m e site := ha.routed topic m e
  committed := ha.committed
  dropped := ha.dropped

/-- What every node of `Run` owes the outline. -/
theorem safe_run (ha : Annotated O M i c serdes A) (n : Node) {s : σ} (hs : A (stageOf n) s) :
    O.safe M i (c.run n) (fun n => A (stageOf n)) (fun _ _ => True) s := by
  rw [← stageAt_pointOf] at hs
  refine Outline.safe_mono (fun m t ht => ?_) (fun _ _ hx => hx) (ha.staged.safe_run n hs)
  rw [← stageAt_pointOf]
  exact ht

end Annotated

end CdcPipeline.Proofs.RunOutline
