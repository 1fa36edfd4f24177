import CdcPipeline.Proofs.RetryRuns
import CdcPipeline.Proofs.RunAsks

namespace CdcPipeline.Proofs.BackoffSchedule

open Library Text Model KafkaConsumerBase RunAsks

variable {Sink : Type} {SinkAns : Sink → Type}

/-- A call of `Run`, with what it got. -/
abbrev Call (SinkAns : Sink → Type) := Prog.Exchange (RunOp Sink) (RunAns SinkAns)

/-- The pauses among some calls, in milliseconds. -/
def pauses (calls : List (Call SinkAns)) : List Int :=
  calls.filterMap fun c => match c.op with
    | .sleepFor ms => some ms
    | _ => none

/-- The numbers of the attempts that were reported to have failed. -/
def failures (calls : List (Call SinkAns)) : List Int :=
  calls.filterMap fun c => match c.op with
    | .log (.recordProcessingFailed attempt _ _ _) => some attempt
    | _ => none

/-- A success, or the failure of the last attempt. -/
def Final (cfg : Config) : RunOp Sink → Prop
  | .log (.recordProcessed _) => True
  | .log (.recordProcessingFailed attempt _ _ _) => attempt = cfg.maxRetries
  | _ => False

/-- The failure of an attempt that is not the last. -/
def Retried (cfg : Config) : RunOp Sink → Prop
  | .log (.recordProcessingFailed attempt _ _ _) => attempt < cfg.maxRetries
  | _ => False

def IsPause : RunOp Sink → Prop
  | .sleepFor _ => True
  | _ => False

/-- `running_` is loaded, and a pause comes next if it was set. -/
def PausesNext : List (Call SinkAns) → Prop
  | ⟨.loadRunning, running⟩ :: rest => running = true → ∃ c ∈ rest.head?, IsPause c.op
  | _ => False

/-- Behind every failure that is retried comes its pause. -/
def Waits (cfg : Config) : List (Call SinkAns) → Prop
  | [] => True
  | c :: rest => (Retried cfg c.op → PausesNext rest) ∧ Waits cfg rest

/-- The pause after so many others. -/
def delay (cfg : Config) (k : Nat) : Int := min (cfg.initialBackoffMs * 2 ^ k) cfg.maxBackoffMs

/-- How the calls made for one message pace its attempts. -/
structure Paced (cfg : Config) (calls : List (Call SinkAns)) : Prop where
  pauses : ∃ n : Nat, (n : Int) ≤ cfg.maxRetries - 1 ∧
    pauses calls = (List.range n).map (delay cfg)
  attempts : ∃ n : Nat, (n : Int) ≤ cfg.maxRetries ∧
    failures calls = (List.range n).map (fun k : Nat => (k : Int) + 1)
  waits : Waits cfg calls
  rests : calls.Pairwise (fun c next => Final cfg c.op → ¬ IsPause next.op)
  -- a pause is doubled as soon as it is over, and nothing else is
  fits : ∀ ms ∈ BackoffSchedule.pauses calls, 0 < ms ∧ ms * 2 < 2 ^ 31

section Schedule
variable {cfg : Config} (small : 0 < cfg.initialBackoffMs)
  (ordered : cfg.initialBackoffMs ≤ cfg.maxBackoffMs)
include small ordered

/-- Doubling a pause and cutting it again gives the next. -/
theorem delay_succ (k : Nat) : min (delay cfg k * 2) cfg.maxBackoffMs = delay cfg (k + 1) := by
  have hpow : (0 : Int) < cfg.initialBackoffMs * 2 ^ k := mul_pos small (by positivity)
  have hnext : cfg.initialBackoffMs * 2 ^ (k + 1) = cfg.initialBackoffMs * 2 ^ k * 2 := by
    rw [pow_succ, mul_assoc]
  simp only [delay, hnext]
  omega

theorem delay_fits (bounded : cfg.maxBackoffMs < 2 ^ 30) (k : Nat) :
    0 < delay cfg k ∧ delay cfg k * 2 < 2 ^ 31 := by
  have hpow : (0 : Int) < cfg.initialBackoffMs * 2 ^ k := mul_pos small (by positivity)
  have hlow : 0 < delay cfg k := lt_min hpow (small.trans_le ordered)
  have hhigh : delay cfg k ≤ cfg.maxBackoffMs := min_le_right _ _
  omega

omit small in
theorem delay_zero : delay cfg 0 = cfg.initialBackoffMs := by
  simpa [delay] using ordered

end Schedule

/-- The calls from an attempt on, behind so many pauses and with so many attempts left. -/
structure Stretch (cfg : Config) (k attempt left : Nat) (calls : List (Call SinkAns)) : Prop where
  pauses : ∃ n, (n = 0 ∨ n < left) ∧ pauses calls = (List.range' k n).map (delay cfg)
  attempts : ∃ n ≤ left, failures calls = (List.range' attempt n).map (fun i : Nat => (i : Int))
  waits : Waits cfg calls
  rests : calls.Pairwise (fun c next => Final cfg c.op → ¬ IsPause next.op)

section Calls
variable {cfg : Config} {k attempt left : Nat} {calls pre post : List (Call SinkAns)}

theorem Aside.not_final {op : RunOp Sink} (h : Aside op) : ¬ Final cfg op := by
  cases op with
  | log e =>
    cases e with
    | recordProcessed | recordProcessingFailed => exact h.elim
    | _ => exact id
  | _ => exact id

theorem Aside.not_retried {op : RunOp Sink} (h : Aside op) : ¬ Retried cfg op := by
  cases op with
  | log e =>
    cases e with
    | recordProcessingFailed => exact h.elim
    | _ => exact id
  | _ => exact id

theorem Aside.not_pause {op : RunOp Sink} (h : Aside op) : ¬ IsPause op := by
  cases op with
  | sleepFor ms => exact h.elim
  | _ => exact id

theorem pauses_aside (h : ∀ c ∈ calls, Aside c.op) : pauses calls = [] := by
  refine List.filterMap_eq_nil_iff.mpr fun c hc => ?_
  have ha := h c hc
  revert ha
  cases c.op with
  | sleepFor ms => exact False.elim
  | _ => exact fun _ => rfl

theorem failures_aside (h : ∀ c ∈ calls, Aside c.op) : failures calls = [] := by
  refine List.filterMap_eq_nil_iff.mpr fun c hc => ?_
  have ha := h c hc
  revert ha
  cases c.op with
  | log e =>
    cases e with
    | recordProcessingFailed => exact False.elim
    | _ => exact fun _ => rfl
  | _ => exact fun _ => rfl

theorem waits_aside (h : ∀ c ∈ calls, Aside c.op) : Waits cfg calls := by
  induction calls with
  | nil => trivial
  | cons c rest ih =>
    obtain ⟨hc, hrest⟩ := List.forall_mem_cons.mp h
    exact ⟨fun hr => absurd hr (Aside.not_retried hc), ih hrest⟩

theorem PausesNext.append (h : PausesNext calls) : PausesNext (calls ++ post) := by
  unfold PausesNext at h
  split at h
  · intro hrunning
    obtain ⟨c, hc, hpause⟩ := h hrunning
    exact ⟨c, List.mem_head?_append_of_mem_head? hc, hpause⟩
  · exact h.elim

theorem Waits.append (h : Waits cfg calls) (hpost : Waits cfg post) :
    Waits cfg (calls ++ post) := by
  induction calls with
  | nil => exact hpost
  | cons c rest ih => exact ⟨fun hr => (h.1 hr).append, ih h.2⟩

theorem Stretch.nil : Stretch cfg k attempt left ([] : List (Call SinkAns)) :=
  ⟨⟨0, .inl rfl, rfl⟩, ⟨0, Nat.zero_le _, rfl⟩, trivial, .nil⟩

/-- What surrounds the attempts makes no difference. -/
theorem Stretch.between (h : Stretch cfg k attempt left calls) (hpre : ∀ c ∈ pre, Aside c.op)
    (hpost : ∀ c ∈ post, Aside c.op) : Stretch cfg k attempt left (pre ++ calls ++ post) := by
  obtain ⟨n, hn, hp⟩ := h.pauses
  obtain ⟨i, hi, hf⟩ := h.attempts
  refine ⟨⟨n, hn, ?_⟩, ⟨i, hi, ?_⟩, ?_, ?_⟩
  · have hap := pauses_aside hpre
    have hbp := pauses_aside hpost
    simp only [BackoffSchedule.pauses, List.filterMap_append] at hap hbp hp ⊢
    rw [hap, hbp, hp, List.nil_append, List.append_nil]
  · have haf := failures_aside hpre
    have hbf := failures_aside hpost
    simp only [failures, List.filterMap_append] at haf hbf hf ⊢
    rw [haf, hbf, hf, List.nil_append, List.append_nil]
  · exact ((waits_aside hpre).append h.waits).append (waits_aside hpost)
  · refine List.pairwise_append.mpr ⟨List.pairwise_append.mpr ⟨?_, h.rests, ?_⟩, ?_, ?_⟩
    · exact List.pairwise_of_forall_mem_list fun c hc _ _ hf =>
        absurd hf (Aside.not_final (hpre c hc))
    · exact fun c hc _ _ hf => absurd hf (Aside.not_final (hpre c hc))
    · exact List.pairwise_of_forall_mem_list fun _ _ c hc _ => Aside.not_pause (hpost c hc)
    · exact fun _ _ c hc _ => Aside.not_pause (hpost c hc)

theorem Stretch.behind (h : Stretch cfg k attempt left calls) (hpre : ∀ c ∈ pre, Aside c.op) :
    Stretch cfg k attempt left (pre ++ calls) := by
  have nothing : ∀ c ∈ ([] : List (Call SinkAns)), Aside c.op := nofun
  rw [← List.append_nil (pre ++ calls)]
  exact h.between hpre nothing

theorem Stretch.before (h : Stretch cfg k attempt left calls) (hpost : ∀ c ∈ post, Aside c.op) :
    Stretch cfg k attempt left (calls ++ post) := by
  have nothing : ∀ c ∈ ([] : List (Call SinkAns)), Aside c.op := nofun
  exact h.between nothing hpost

theorem Stretch.loaded (h : Stretch cfg k attempt left calls) (running : Bool) :
    Stretch cfg k attempt left (⟨.loadRunning, running⟩ :: calls) := by
  have aside : ∀ c ∈ [(⟨.loadRunning, running⟩ : Call SinkAns)], Aside c.op :=
    List.forall_mem_singleton.mpr trivial
  exact h.behind aside

theorem stretch_success (m : Message) :
    Stretch cfg k attempt left [(⟨.log (.recordProcessed m), ()⟩ : Call SinkAns)] :=
  ⟨⟨0, .inl rfl, rfl⟩, ⟨0, Nat.zero_le _, rfl⟩, ⟨False.elim, trivial⟩, List.pairwise_singleton _ _⟩

/-- The last attempt fails. -/
theorem stretch_last (last : ¬ (attempt : Int) < cfg.maxRetries) (max : Int) (m : Message)
    (what : Bytes) : Stretch cfg k attempt 1
      [(⟨.log (.recordProcessingFailed attempt max m what), ()⟩ : Call SinkAns)] :=
  ⟨⟨0, .inl rfl, rfl⟩, ⟨1, Nat.le_refl _, rfl⟩, ⟨fun hr => absurd hr last, trivial⟩,
    List.pairwise_singleton _ _⟩

/-- An attempt fails, `running_` is found unset, and the next follows without a pause. -/
theorem Stretch.failed (h : Stretch cfg k (attempt + 1) left calls)
    (more : (attempt : Int) ≠ cfg.maxRetries) (max : Int) (m : Message) (what : Bytes) :
    Stretch cfg k attempt (left + 1) (⟨.log (.recordProcessingFailed attempt max m what), ()⟩ ::
      ⟨.loadRunning, false⟩ :: calls) := by
  have hloaded := h.loaded false
  obtain ⟨n, hn, hp⟩ := hloaded.pauses
  obtain ⟨i, hi, hf⟩ := hloaded.attempts
  refine ⟨⟨n, by omega, hp⟩, ⟨i + 1, by omega, ?_⟩, ⟨fun _ => nofun, hloaded.waits⟩, ?_⟩
  · rw [List.range'_succ, List.map_cons, ← hf]
    rfl
  · exact List.pairwise_cons.mpr ⟨fun _ _ hfinal => absurd hfinal more, hloaded.rests⟩

/-- An attempt fails, and the next follows after a pause. -/
theorem Stretch.paused (h : Stretch cfg (k + 1) (attempt + 1) left calls) (hleft : left ≠ 0)
    (more : (attempt : Int) ≠ cfg.maxRetries) (max : Int) (m : Message) (what : Bytes) :
    Stretch cfg k attempt (left + 1) (⟨.log (.recordProcessingFailed attempt max m what), ()⟩ ::
      ⟨.loadRunning, true⟩ :: ⟨.sleepFor (delay cfg k), ()⟩ :: calls) := by
  obtain ⟨n, hn, hp⟩ := h.pauses
  obtain ⟨i, hi, hf⟩ := h.attempts
  refine ⟨⟨n + 1, by omega, ?_⟩, ⟨i + 1, by omega, ?_⟩, ?_, ?_⟩
  · rw [List.range'_succ, List.map_cons, ← hp]
    rfl
  · rw [List.range'_succ, List.map_cons, ← hf]
    rfl
  · exact ⟨fun _ _ => ⟨_, rfl, trivial⟩, False.elim, False.elim, h.waits⟩
  · refine List.pairwise_cons.mpr ⟨fun _ _ hfinal => absurd hfinal more, ?_⟩
    refine List.pairwise_cons.mpr ⟨fun _ _ hfinal => hfinal.elim, ?_⟩
    exact List.pairwise_cons.mpr ⟨fun _ _ hfinal => hfinal.elim, h.rests⟩

end Calls

section Loop
variable {S : Type} {cfg : Config} {k attempt left : Nat}
  (h : Handler (RunOp Sink) (RunAns SinkAns) S)
  (processRecord : Json → Bytes → Nat → Prog Sink SinkAns Bytes Unit)

theorem stretch_aside {α : Type} {p : RunProg SinkAns α} (hp : p.Asks Aside) (s : S) :
    Stretch cfg k attempt left (p.trace h s) := by
  rw [← List.append_nil (p.trace h s)]
  exact Stretch.nil.behind (hp.trace h s)

theorem stretch_behind {α β : Type} {p : RunProg SinkAns α} {f : α → RunProg SinkAns β}
    (hp : p.Asks Aside) (s : S) (hf : ∀ a t, Stretch cfg k attempt left ((f a).trace h t)) :
    Stretch cfg k attempt left ((p.bind f).trace h s) := by
  rcases Prog.trace_bind h p f s with ⟨e, t, -, htrace⟩ | ⟨a, t, -, htrace⟩
  · rw [htrace]
    exact stretch_aside h hp s
  · rw [htrace]
    exact (hf a t).behind (hp.trace h s)

theorem stretch_before {α β : Type} {p : RunProg SinkAns α} {f : α → RunProg SinkAns β} {s : S}
    (hp : Stretch cfg k attempt left (p.trace h s)) (hf : ∀ a, (f a).Asks Aside) :
    Stretch cfg k attempt left ((p.bind f).trace h s) := by
  rcases Prog.trace_bind h p f s with ⟨e, t, -, htrace⟩ | ⟨a, t, -, htrace⟩
  · rw [htrace]
    exact hp
  · rw [htrace]
    exact hp.before ((hf a).trace h t)

/-- An attempt reports its success, or throws and has reported nothing. -/
theorem stretch_attempt {doc : Json} {key : Bytes} {m : Message}
    {f : Except Bytes Unit → RunProg SinkAns (Except Bytes Unit)} (s : S)
    (hok : ∀ t, Stretch cfg k attempt left
      (⟨.log (.recordProcessed m), ()⟩ :: (f (.ok ())).trace h t))
    (hthrow : ∀ what t, Stretch cfg k attempt left ((f (.error what)).trace h t)) :
    Stretch cfg k attempt left ((((process processRecord doc key m).bind fun _ =>
      call (.log (.recordProcessed m))).attempt.bind f).trace h s) := by
  have hsink : (process processRecord doc key m).Asks Aside :=
    (Prog.asks_true _).embed fun _ _ => trivial
  generalize hp : ((process processRecord doc key m).bind fun _ =>
    call (.log (.recordProcessed m)) : RunProg SinkAns Unit) = p
  rcases Prog.trace_bind h p.attempt f s with ⟨e, t, hr, -⟩ | ⟨r, t, hr, htrace⟩
  · rw [Prog.run_attempt] at hr
    exact absurd (congrArg Prod.fst hr) nofun
  rw [Prog.run_attempt, Prod.mk.injEq, Except.ok.injEq] at hr
  rw [htrace, Prog.trace_attempt, ← hp]
  rcases Prog.trace_bind h (process processRecord doc key m)
    (fun _ => call (.log (.recordProcessed m))) s with ⟨e, t', he, htrace⟩ | ⟨a, t', ha, htrace⟩
  · rw [← hp, Prog.run_bind, he] at hr
    rw [htrace, ← hr.1]
    exact (hthrow e t).behind (hsink.trace h s)
  · rw [← hp, Prog.run_bind, ha] at hr
    rw [htrace, ← hr.1, List.append_assoc]
    exact (hok t).behind (hsink.trace h s)

theorem stretch_retryLoop (small : 0 < cfg.initialBackoffMs)
    (ordered : cfg.initialBackoffMs ≤ cfg.maxBackoffMs) (m : Message) (doc : Json) (key : Bytes)
    (left k attempt : Nat) (hleft : (attempt : Int) + left = cfg.maxRetries + 1) (last : Bytes)
    (s : S) : Stretch cfg k attempt left ((retryLoop cfg processRecord m doc key left attempt
      (delay cfg k) last).trace h s) := by
  induction left generalizing k attempt last s with
  | zero => exact .nil
  | succ left ih =>
    simp only [retryLoop, call, Prog.bind_eq, Prog.pure_eq, Prog.call_bind, Prog.trace_ask]
    refine Stretch.loaded ?_ _
    cases (h .loadRunning s).1 with
    | false => exact .nil
    | true =>
      refine stretch_attempt h processRecord _ (fun t => stretch_success m) fun what t => ?_
      simp only [Prog.trace_ask, backOff]
      by_cases more : (attempt : Int) < cfg.maxRetries
      · have hnext : ∀ k' next t, next = delay cfg k' → Stretch cfg k' (attempt + 1) left
            ((retryLoop cfg processRecord m doc key left (attempt + 1) next what).trace h t) := by
          intro k' next t hnext
          rw [hnext]
          exact ih k' (attempt + 1) (by push_cast; omega) what t
        simp only [if_pos more, call, Prog.bind_eq, Prog.pure_eq, Prog.call_bind, Prog.ask_bind,
          Prog.trace_ask]
        cases (h .loadRunning _).1 with
        | false => exact (hnext k _ _ rfl).failed more.ne _ m what
        | true =>
          exact (hnext (k + 1) _ _ (delay_succ small ordered k)).paused (by omega) more.ne _ m what
      · obtain rfl : left = 0 := by omega
        rw [if_neg more]
        exact stretch_last more _ m what

end Loop

section Message
variable {S : Type} {cfg : Config}

theorem Stretch.paced {calls : List (Call SinkAns)} {left : Nat} (small : 0 < cfg.initialBackoffMs)
    (ordered : cfg.initialBackoffMs ≤ cfg.maxBackoffMs) (bounded : cfg.maxBackoffMs < 2 ^ 30)
    (positive : 1 ≤ cfg.maxRetries) (hleft : (left : Int) ≤ cfg.maxRetries)
    (h : Stretch cfg 0 1 left calls) : Paced cfg calls := by
  obtain ⟨n, hn, hp⟩ := h.pauses
  obtain ⟨i, hi, hf⟩ := h.attempts
  refine ⟨⟨n, by omega, ?_⟩, ⟨i, by omega, ?_⟩, h.waits, h.rests, ?_⟩
  · rw [hp, List.range_eq_range']
  · rw [hf, List.range'_eq_map_range, List.map_map]
    exact List.map_congr_left fun k _ => by simp [add_comm]
  · intro ms hms
    rw [hp] at hms
    obtain ⟨k, -, rfl⟩ := List.mem_map.mp hms
    exact delay_fits small ordered bounded k

/-- Whatever becomes of the calls and of `running_`, one message is attempted with doubling
pauses up to the longest one, fewer of them than attempts, and none behind the last. -/
theorem backoff_schedule (positive : 1 ≤ cfg.maxRetries) (small : 0 < cfg.initialBackoffMs)
    (ordered : cfg.initialBackoffMs ≤ cfg.maxBackoffMs) (bounded : cfg.maxBackoffMs < 2 ^ 30)
    (h : Handler (RunOp Sink) (RunAns SinkAns) S) (parse : Bytes → Except Bytes Json)
    (processRecord : Json → Bytes → Nat → Prog Sink SinkAns Bytes Unit) (m : Message) (s : S) :
    Paced cfg ((handleMessage parse cfg processRecord m).trace h s) := by
  refine Stretch.paced small ordered bounded positive
    (Int.toNat_of_nonneg (by omega : 0 ≤ cfg.maxRetries)).le ?_
  refine stretch_behind h ((asks_messageKey m).mono fun _ => Decodes.aside) s fun key t => ?_
  refine stretch_behind h ((asks_deserialize _).mono fun _ => Decodes.aside) t fun doc t => ?_
  cases doc with
  | none =>
    exact stretch_aside h (p := .ask (.log (.unparseablePayloadRoutingDlq m)) _)
      ⟨trivial, fun _ => asks_divert cfg m _ _ _⟩ t
  | some doc =>
    refine stretch_before h ?_ fun r => ?_
    · have hloop := stretch_retryLoop h processRecord small ordered m doc key
        cfg.maxRetries.toNat 0 1 (by omega) [] t
      rw [delay_zero ordered] at hloop
      exact hloop
    · cases r with
      | ok _ => exact ⟨trivial, fun _ => trivial⟩
      | error lastError =>
        refine ⟨trivial, fun b => ?_⟩
        cases b with
        | false => trivial
        | true => exact ⟨trivial, fun _ => asks_divert cfg m _ _ _⟩

end Message

/-- A message that parses, and nothing that stops the consumer. -/
def sampleSurroundings : Surroundings Empty nofun Unit where
  message := ⟨bytes "orders", 0, 0, none, some (bytes "7")⟩
  sink := fun _ op _ => op.elim
  asleep := fun _ s => s
  cached := fun _ => true
  reachable := fun _ => true
  serdes := fun _ => .conversionFailed
  unreachable := []
  now := 0
  producer := true
  produced := .ok ()

/-- The calls of a consumer whose every attempt throws. -/
def sampleCalls : List (Prog.Exchange (RunOp Empty) (RunAns nofun)) :=
  (handleMessage (fun _ => .ok (.int 7)) (.withDefaults (bytes "RedisUpdater") (bytes "orders"))
    (fun _ _ _ => .raise (bytes "down")) sampleSurroundings.message).trace
    (Handling.answer sampleSurroundings) (Handling.start ())

theorem backoff_schedule_defaults :
    Paced (.withDefaults (bytes "RedisUpdater") (bytes "orders")) sampleCalls :=
  backoff_schedule (by decide) (by decide) (by decide) (by decide) _ _ _ _ _

example : pauses sampleCalls = [100, 200, 400, 800] := rfl

end CdcPipeline.Proofs.BackoffSchedule
