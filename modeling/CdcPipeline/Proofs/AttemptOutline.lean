import CdcPipeline.Proofs.RunOutline

namespace CdcPipeline.Proofs.AttemptOutline

open Library Text Model KafkaConsumerBase RunOutline

/-- The stages of a pass through the loop, with the attempts that have thrown. -/
inductive Phase where
  | fresh | idle | ready | closing
  | fetched (m : Message)
  | trying (m : Message) (failed : Nat)
  | ran (m : Message) | done (m : Message) | halted (m : Message)
  | divert (m : Message) (site : CommitSite)

def phaseOf : Node → Phase
  | .start => .fresh
  | .head => .idle
  | .closing | .returned => .closing

variable {ι Sink σ : Type} {SinkAns : Sink → Type}

/-- An assertion for every phase of thread `i`, and what each call of `Run` owes it. -/
structure Counted (O : Outline ι Node σ) (M : RunMachine ι SinkAns σ) (i : ι)
    (c : Consumer Sink SinkAns) (serdes : Bytes → AvroResult → Prop) (A : Phase → σ → Prop) :
    Prop where
  quiet : Quiet O M i serdes
  stable : ∀ ph, O.Stable i (A ph)
  start : O.Call M i (.storeRunning true) (A .fresh) (fun _ => A .idle)
  load : ∀ s b s', O.inv s → A .idle s → M.call i .loadRunning s b s' →
    A (if b then .ready else .closing) s
  consume : O.Call M i (.consume 1000) (A .ready)
    (fun d => match d with | .message m => A (.fetched m) | _ => A .idle)
  decoded : ∀ m doc s, Decodes c.parse serdes m.payload (some doc) → A (.fetched m) s →
    A (.trying m 0) s
  unparseable : ∀ m, Decodes c.parse serdes m.payload none →
    O.Call M i (.log (.unparseablePayloadRoutingDlq m)) (A (.fetched m))
      (fun _ => A (.divert m .unparseable))
  process : ∀ m n doc key s, n < c.cfg.maxRetries.toNat →
    Decodes c.parse serdes m.payload (some doc) → Keys c.parse serdes m key → A (.trying m n) s →
    O.safe M i (process c.processRecord doc key m) (fun _ => A (.ran m))
      (fun _ => A (.trying m (n + 1))) s
  stopped : ∀ m n s s', n < c.cfg.maxRetries.toNat → O.inv s → A (.trying m n) s →
    M.call i .loadRunning s false s' → A (.halted m) s
  halted : ∀ m s b s', O.inv s → A (.halted m) s → M.call i .loadRunning s b s' →
    b = false ∧ A .idle s
  left : ∀ m s s', O.inv s → A (.trying m c.cfg.maxRetries.toNat) s →
    M.call i .loadRunning s false s' → A .idle s
  processed : ∀ m, O.Call M i (.log (.recordProcessed m)) (A (.ran m)) (fun _ => A (.done m))
  exhausted : ∀ m e, O.Call M i (.log (.retriesExhaustedRoutingDlq m e))
    (A (.trying m c.cfg.maxRetries.toNat)) (fun _ => A (.divert m .exhausted))
  produce : ∀ m site topic body key, O.Call M i (.produce m topic body key) (A (.divert m site))
    (fun _ => A (.divert m site))
  routed : ∀ topic m e site, O.Call M i (.log (.routedToDlq topic m e)) (A (.divert m site))
    (fun _ => A (.divert m site))
  committed : ∀ m, O.Call M i (.commitSync m .processed) (A (.done m)) (fun _ => A .idle)
  dropped : ∀ m site, O.Call M i (.commitSync m site) (A (.divert m site)) (fun _ => A .idle)

/-- The phase a point belongs to: a dead letter stays in one until it is committed, and a
message whose attempts have all thrown needs no phase of its own. -/
def phaseAt (cfg : Config) : Point → Phase
  | .fresh => .fresh
  | .idle => .idle
  | .ready => .ready
  | .closing => .closing
  | .fetched m => .fetched m
  | .trying m n => .trying m n
  | .ran m => .ran m
  | .done m => .done m
  | .halted m => .halted m
  | .spent m => .trying m cfg.maxRetries.toNat
  | .divert m site | .queued m site | .flushed m site | .diverted m site => .divert m site

theorem phaseAt_pointOf (cfg : Config) (n : Node) : phaseAt cfg (pointOf n) = phaseOf n := by
  cases n <;> rfl

namespace Counted

variable {O : Outline ι Node σ} {M : RunMachine ι SinkAns σ} {i : ι}
  {c : Consumer Sink SinkAns} {serdes : Bytes → AvroResult → Prop} {A : Phase → σ → Prop}

theorem staged (hc : Counted O M i c serdes A) :
    Staged O M i c serdes (fun p => A (phaseAt c.cfg p)) where
  quiet := hc.quiet
  stable p := hc.stable (phaseAt c.cfg p)
  start := hc.start
  load s b s' hi hs hload := by
    have hnext := hc.load s b s' hi hs hload
    cases b with
    | _ => exact hnext
  consume s d s' hi hs hd := by
    obtain ⟨hinv, hothers, hnext⟩ := hc.consume s d s' hi hs hd
    refine ⟨hinv, hothers, ?_⟩
    cases d with
    | _ => exact hnext
  decoded := hc.decoded
  unparseable := hc.unparseable
  process := hc.process
  stopped := hc.stopped
  ended m s b s' hi hs hload := by
    rcases hs with hs | hs
    · obtain ⟨rfl, hidle⟩ := hc.halted m s b s' hi hs hload
      exact hidle
    · cases b with
      | false => exact hc.left m s s' hi hs hload
      | true => exact hs
  processed := hc.processed
  exhausted := hc.exhausted
  noProducer m site s s' hi hs _ := hs
  produce m site topic body key s r s' hi hs hr := by
    obtain ⟨hinv, hothers, hnext⟩ := hc.produce m site topic body key s r s' hi hs hr
    refine ⟨hinv, hothers, ?_⟩
    cases r with
    | _ => exact hnext
  flush m site s a s' hi hs _ := hs
  routed := hc.routed
  committed := hc.committed
  dropped m site _ := hc.dropped m site

/-- What every node of `Run` owes the outline. -/
theorem safe_run (hc : Counted O M i c serdes A) (n : Node) {s : σ} (hs : A (phaseOf n) s) :
    O.safe M i (c.run n) (fun n => A (phaseOf n)) (fun _ _ => True) s := by
  rw [← phaseAt_pointOf c.cfg] at hs
  refine Outline.safe_mono (fun m t ht => ?_) (fun _ _ hx => hx) (hc.staged.safe_run n hs)
  rw [← phaseAt_pointOf c.cfg]
  exact ht

end Counted

end CdcPipeline.Proofs.AttemptOutline
