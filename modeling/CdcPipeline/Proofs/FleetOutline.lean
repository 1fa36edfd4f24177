import CdcPipeline.Model.Fleet
import CdcPipeline.Proofs.RunOutline

namespace CdcPipeline.Proofs.FleetOutline

open Library Text Model KafkaConsumerBase RunOutline

variable {ι Sink S : Type} {SinkAns : Sink → Type}

/-- What a proof about a fleet supplies: an invariant of the sink, how the others may
change it, what an instance has reached once `ProcessRecord` returned, and what a
committed message is owed from then on. -/
structure Claim (ι S : Type) where
  inv : S → Prop
  rely : ι → S → S → Prop
  ran : ι → Message → S → Prop
  acked : Message → S → Prop
  refl : ∀ i s, rely i s s
  trans : ∀ i s s₁ s₂, rely i s s₁ → rely i s₁ s₂ → rely i s s₂
  ranStable : ∀ i m s s', rely i s s' → ran i m s → ran i m s'

variable (E : FleetSetting ι Sink SinkAns S) (K : Claim ι S)

def stage (i : ι) : Stage → Fleet S → Prop
  | .busy m, _ => E.delivers m
  | .ran m, w | .done m, w => E.delivers m ∧ K.ran i m w.sink
  | _, _ => True

def outline : Outline ι Node (Fleet S) where
  inv w := K.inv w.sink ∧ ∀ m ∈ w.acknowledged, K.acked m w.sink
  rely i w w' := K.rely i w.sink w'.sink
  node i n := stage E K i (stageOf n)

/-- A step of the sink that `i` takes, or that nobody takes. -/
structure Keeps (others : ι → Prop) (s s' : S) : Prop where
  inv : K.inv s'
  rely : ∀ j, others j → K.rely j s s'
  acked : ∀ m, K.acked m s → K.acked m s'

structure Settles (c : ι → Consumer Sink SinkAns) : Prop where
  process : ∀ i m doc key w, Decodes (c i).parse E.serdes m.payload (some doc) →
    Keys (c i).parse E.serdes m key → E.delivers m →
    (outline E K).safe (Fleet.machine E c) i (process (c i).processRecord doc key m)
      (fun _ => stage E K i (.ran m)) (fun _ => stage E K i (.busy m)) w
  acked : ∀ i m s, K.inv s → E.delivers m → K.ran i m s → K.acked m s
  env : ∀ s s', K.inv s → E.sinkEnv s s' → Keeps K (fun _ => True) s s'
  crash : ∀ i s s', K.inv s → E.sinkCrash i s s' → Keeps K (fun j => j ≠ i) s s'

variable {E K} {c : ι → Consumer Sink SinkAns}

theorem stage_stable (i : ι) (st : Stage) : (outline E K).Stable i (stage E K i st) := by
  intro w w' hr hs
  cases st with
  | busy m => exact hs
  | ran m => exact ⟨hs.1, K.ranStable i m _ _ hr hs.2⟩
  | done m => exact ⟨hs.1, K.ranStable i m _ _ hr hs.2⟩
  | _ => trivial

/-- The rule for a sink call. -/
theorem call_sink {i : ι} {o : Sink} {P : S → Prop} {R : SinkAns o → S → Prop}
    (ho : ∀ s a s', K.inv s → P s → E.sinkCall i o s a s' →
      Keeps K (fun j => j ≠ i) s s' ∧ R a s') :
    (outline E K).Call (Fleet.machine E c) i (.sink o) (fun w => P w.sink)
      (fun a w => R a w.sink) := by
  intro w a w' hi hp ⟨s, he, hw⟩
  subst hw
  obtain ⟨hkeeps, hR⟩ := ho w.sink a s hi.1 hp he
  exact ⟨⟨hkeeps.inv, fun m hm => hkeeps.acked m (hi.2 m hm)⟩, hkeeps.rely, hR⟩

theorem keeps_same {others : ι → Prop} {s : S} (h : K.inv s) : Keeps K others s s :=
  ⟨h, fun j _ => K.refl j s, fun _ ha => ha⟩

/-- The calls that change nothing leave the fleet as it is. -/
theorem call_still (i : ι) (op : RunOp Sink) (w : Fleet S) (a : RunAns SinkAns op) (w' : Fleet S)
    (hop : Still op) (h : Fleet.call E i op w a w') : w' = w := by
  cases op with
  | storeRunning b => exact absurd hop id
  | consume n => exact absurd hop id
  | sink op => exact absurd hop id
  | commitSync m s => exact absurd hop id
  | serdesDeserialize d => exact h.1
  | _ => exact h

/-- A call that leaves the fleet as it is, told what its answer says. -/
theorem call_same {i : ι} {op : RunOp Sink} {P : Fleet S → Prop}
    {Q : RunAns SinkAns op → Fleet S → Prop}
    (h : ∀ w a w', P w → Fleet.call E i op w a w' → w' = w ∧ Q a w) :
    (outline E K).Call (Fleet.machine E c) i op P Q := by
  intro w a w' hi hP hc
  obtain ⟨rfl, hQ⟩ := h w a w' hP hc
  exact ⟨hi, fun j _ => K.refl j _, hQ⟩

theorem annotated (hk : Settles E K c) (i : ι) :
    Annotated (outline E K) (Fleet.machine E c) i (c i) E.serdes (stage E K i) where
  refl := fun j w => K.refl j _
  stable := stage_stable i
  still := call_still i
  registry := fun _ _ _ _ h => h.2
  start := call_same fun _ _ _ _ h => ⟨h, trivial⟩
  load := by
    intro w b w' _ _ _
    cases b with
    | false => trivial
    | true => trivial
  consume := by
    apply call_same
    intro w d w' _ h
    refine ⟨h.1, ?_⟩
    cases d with
    | message m => exact h.2 m rfl
    | _ => trivial
  stopped := fun _ _ _ _ _ _ => trivial
  process := fun m doc key w hd hkey hw => hk.process i m doc key w hd hkey hw
  processed := fun _ => call_same fun _ _ _ hs h => ⟨h, hs⟩
  unparseable := fun _ _ _ _ _ _ _ _ => trivial
  exhausted := fun _ _ _ _ _ _ _ _ => trivial
  noProducer := fun _ _ _ _ _ _ => trivial
  produce := by
    intro m topic body key
    apply call_same
    intro w a w' _ h
    refine ⟨h, ?_⟩
    cases a with
    | ok _ => trivial
    | error e => trivial
  flush := fun _ _ _ _ _ _ _ => trivial
  routed := fun _ _ _ => call_same fun _ _ _ _ h => ⟨h, trivial⟩
  committed := by
    intro m w _ w' hi hs h
    obtain rfl : w' = Fleet.acknowledge w m := h
    refine ⟨⟨hi.1, ?_⟩, fun j _ => K.refl j _, trivial⟩
    intro m' hm'
    rcases List.mem_cons.mp hm' with rfl | hm'
    · exact hk.acked i m' w.sink hi.1 hs.1 hs.2
    · exact hi.2 m' hm'
  dropped := by
    intro m site hsite
    apply call_same
    intro w _ w' _ h
    refine ⟨?_, trivial⟩
    cases site with
    | processed => exact absurd rfl hsite
    | unparseable => exact h
    | exhausted => exact h

theorem valid (hk : Settles E K c) : (outline E K).Valid (Fleet.machine E c) where
  refl := fun i w => K.refl i _
  trans := fun i _ _ _ h h' => K.trans i _ _ _ h h'
  stable := fun i n => stage_stable i (stageOf n)
  code := fun i n _ hs => (annotated hk i).safe_run n hs
  env := by
    intro w w' hi ⟨s, he, hw⟩
    subst hw
    have hkeeps := hk.env w.sink s hi.1 he
    exact ⟨⟨hkeeps.inv, fun m hm => hkeeps.acked m (hi.2 m hm)⟩, fun i => hkeeps.rely i trivial⟩
  crash := by
    intro i w w' hi ⟨s, he, hw⟩
    subst hw
    have hkeeps := hk.crash i w.sink s hi.1 he
    exact ⟨⟨hkeeps.inv, fun m hm => hkeeps.acked m (hi.2 m hm)⟩, hkeeps.rely, trivial⟩

/-- In every reachable state of the fleet the sink keeps its invariant and every
committed message what it is owed. -/
theorem inv_of_reach [DecidableEq ι] (hk : Settles E K c) {s : S} (h₀ : K.inv s)
    {cfg : Machine.Config ι (RunOp Sink) (RunAns SinkAns) Bytes Node (Fleet S)}
    (h : (Fleet.machine E c).Reach ⟨[], s⟩ cfg) :
    K.inv cfg.shared.sink ∧ ∀ m ∈ cfg.shared.acknowledged, K.acked m cfg.shared.sink :=
  ((valid hk).reach ⟨h₀, fun _ hm => absurd hm List.not_mem_nil⟩ (fun _ => trivial) h).1

end CdcPipeline.Proofs.FleetOutline
