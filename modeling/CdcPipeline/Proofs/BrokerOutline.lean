import CdcPipeline.Model.Broker
import CdcPipeline.Proofs.RunOutline

namespace CdcPipeline.Proofs.BrokerOutline

open Library Text Model KafkaConsumerBase RunOutline

variable {Sink S : Type} {SinkAns : Sink → Type}

/-- What a proof about one consumer supplies: `good p n` is what the ledger owes
once the first `n` messages of partition `p` count as dealt with, `mark` what it
owes at a stage of the current message, `calm` what holds of the sink outside of
`ProcessRecord`, `rely` how others may change it. -/
structure Claim (S : Type) where
  good : Nat → Nat → Ledger S → Prop
  mark : Stage → Bool → Ledger S → Prop
  calm : S → Prop
  rely : Ledger S → Ledger S → Prop
  anti : ∀ p n l, good p (n + 1) l → good p n l
  refl : ∀ l, rely l l
  trans : ∀ l l₁ l₂, rely l l₁ → rely l₁ l₂ → rely l l₂
  goodStable : ∀ p n l l', rely l l' → good p n l → good p n l'
  markStable : ∀ st b l l', rely l l' → mark st b l → mark st b l'
  calmStable : ∀ l l', rely l l' → calm l.sink → calm l'.sink

variable (E : Setting Sink SinkAns S) (K : Claim S)

/-- Every partition is good up to `top`, and its offsets stay below. -/
structure Sound (top : Nat → Nat) (w : World S) : Prop where
  good : ∀ p, K.good p (top p) w.ledger
  committed : ∀ p, w.committed p ≤ top p
  handled : ∀ p, w.handled p ≤ top p

/-- The message in hand is the one its partition's position has just passed. -/
structure Held (m : Message) (w : World S) : Prop where
  at_ : Broker.messageAt E m.partition m.offset = some m
  position : w.position m.partition = m.offset + 1
  sound : Sound K (Function.update w.position m.partition m.offset) w

structure Finished (m : Message) (w : World S) : Prop where
  position : w.position m.partition = m.offset + 1
  sound : Sound K w.position w

def Fresh (w : World S) : Prop := w.position = w.committed ∧ w.handled = w.committed

def stage : Stage → World S → Prop
  | .fresh, w => Fresh w ∧ K.calm w.ledger.sink
  | .idle, w => w.running = false ∨ Sound K w.position w ∧ K.calm w.ledger.sink
  | .ready, w => Sound K w.position w ∧ K.calm w.ledger.sink
  | .closing, _ => True
  | .busy m, w => Held E K m w ∧ K.calm w.ledger.sink
  | .done m, w | .diverted m, w => Finished K m w ∧ K.calm w.ledger.sink
  | .ran m, w => (Held E K m w ∧ K.mark (.ran m) w.producer w.ledger) ∧ K.calm w.ledger.sink
  | .divert m, w => (Held E K m w ∧ K.mark (.divert m) w.producer w.ledger) ∧ K.calm w.ledger.sink
  | .queued m, w => (Held E K m w ∧ K.mark (.queued m) w.producer w.ledger) ∧ K.calm w.ledger.sink
  | .flushed m, w =>
    (Held E K m w ∧ K.mark (.flushed m) w.producer w.ledger) ∧ K.calm w.ledger.sink

/-- Others leave the offsets alone and never start a stopped loop. -/
structure Rely (w w' : World S) : Prop where
  position : w'.position = w.position
  committed : w'.committed = w.committed
  handled : w'.handled = w.handled
  producer : w'.producer = w.producer
  running : w.running = false → w'.running = false
  ledger : K.rely w.ledger w'.ledger

def outline : Outline Unit Node (World S) where
  inv w := ∀ p, K.good p (w.committed p) w.ledger ∧ K.good p (w.handled p) w.ledger
  rely _ := Rely K
  node _ n := stage E K (stageOf n)

abbrev Conditions (SinkAns : Sink → Type) (S : Type) :=
  Machine.Condition Unit (RunOp Sink) (RunAns SinkAns) (World S)

/-- The obligations: what has to be shown of a consumer, its setting and a condition
on runs for the claim to hold throughout every run that meets the condition. -/
structure Settles (C : Conditions SinkAns S) (c : Consumer Sink SinkAns) : Prop where
  env : ∀ w w', Broker.Env E w w' → C.env w w' → K.rely w.ledger w'.ledger
  crash : ∀ w s p n, C.crash () w → E.sinkCrash w.ledger.sink s → K.good p n w.ledger →
    K.good p n { w.ledger with queue := [], sink := s }
  restart : ∀ (w : World S) s, E.sinkCrash w.ledger.sink s → K.calm s
  record : ∀ p n l e, K.good p n l → K.good p n (Broker.record l e)
  enqueue : ∀ p n l m, K.good p n l → K.good p n (Broker.enqueue l m)
  process : ∀ m doc key w, Decodes c.parse E.serdes m.payload (some doc) →
    Keys c.parse E.serdes m key → Held E K m w → K.calm w.ledger.sink →
    (outline E K).safe ((Broker.machine E c).restrict C) () (process c.processRecord doc key m)
      (fun _ => stage E K (.ran m)) (fun _ => stage E K (.busy m)) w
  processed : ∀ m b l, Broker.messageAt E m.partition m.offset = some m →
    K.good m.partition m.offset l → K.mark (.ran m) b l →
    K.good m.partition (m.offset + 1) (Broker.record l (.recordProcessed m))
  unparseable : ∀ m w w', Decodes c.parse E.serdes m.payload none → Held E K m w →
    C.call () (.log (.unparseablePayloadRoutingDlq m)) w () w' →
    K.mark (.divert m) w.producer w.ledger
  exhausted : ∀ m e w w', Held E K m w →
    C.call () (.log (.retriesExhaustedRoutingDlq m e)) w () w' →
    K.mark (.divert m) w.producer w.ledger
  noProducer : ∀ m w w', Held E K m w → K.mark (.divert m) false w.ledger →
    C.call () .hasProducer w false w' → K.good m.partition (m.offset + 1) w.ledger
  produced : ∀ m topic body key w w', Held E K m w → K.mark (.divert m) w.producer w.ledger →
    C.call () (.produce m topic body key) w (.ok ()) w' →
    K.mark (.queued m) w.producer (Broker.enqueue w.ledger m)
  refused : ∀ m topic body key e w w', Held E K m w →
    K.mark (.divert m) w.producer w.ledger →
    C.call () (.produce m topic body key) w (.error e) w' →
    K.good m.partition (m.offset + 1) w.ledger
  flushed : ∀ m w w', Held E K m w → K.mark (.queued m) w.producer w.ledger →
    C.call () (.flush 1000) w () w' → K.mark (.flushed m) w.producer w.ledger
  routed : ∀ topic m e b l, Broker.messageAt E m.partition m.offset = some m →
    K.good m.partition m.offset l →
    K.mark (.flushed m) b l →
    K.good m.partition (m.offset + 1) (Broker.record l (.routedToDlq topic m e))

section Offsets

variable {E K}

theorem Sound.transfer {top : Nat → Nat} {w w' : World S} (hs : Sound K top w)
    (hc : w'.committed = w.committed) (hh : w'.handled = w.handled)
    (hg : ∀ p n, K.good p n w.ledger → K.good p n w'.ledger) : Sound K top w' :=
  ⟨fun p => hg p _ (hs.good p), hc ▸ hs.committed, hh ▸ hs.handled⟩

/-- A change of the ledger alone that keeps what was good keeps the message in hand. -/
theorem Held.ledger {m : Message} {w : World S} {l : Ledger S} (h : Held E K m w)
    (hg : ∀ p n, K.good p n w.ledger → K.good p n l) : Held E K m (Broker.withLedger w l) :=
  ⟨h.at_, h.position, h.sound.transfer rfl rfl hg⟩

theorem Held.good {m : Message} {w : World S} (h : Held E K m w) :
    K.good m.partition m.offset w.ledger := by
  have hg := h.sound.good m.partition
  rwa [Function.update_self] at hg

/-- Once the message in hand is good too, so is everything its position has passed. -/
theorem Held.finish {m : Message} {w : World S} (h : Held E K m w)
    (hg : K.good m.partition (m.offset + 1) w.ledger) : Finished K m w := by
  have below : ∀ p, Function.update w.position m.partition m.offset p ≤ w.position p := by
    intro p
    by_cases hp : p = m.partition
    · rw [hp, Function.update_self, h.position]
      exact Nat.le_succ _
    · rw [Function.update_of_ne hp]
  refine ⟨h.position, ⟨fun p => ?_, fun p => ?_, fun p => ?_⟩⟩
  · by_cases hp : p = m.partition
    · rw [hp, h.position]
      exact hg
    · have hother := h.sound.good p
      rwa [Function.update_of_ne hp] at hother
  · exact (h.sound.committed p).trans (below p)
  · exact (h.sound.handled p).trans (below p)

theorem stage_stable (st : Stage) : (outline E K).Stable () (stage E K st) := by
  intro w w' hr hs
  have sound : ∀ top, Sound K top w → Sound K top w' := fun top h =>
    h.transfer hr.committed hr.handled (fun p n => K.goodStable p n _ _ hr.ledger)
  have held : ∀ m, Held E K m w → Held E K m w' := by
    intro m h
    refine ⟨h.at_, hr.position ▸ h.position, ?_⟩
    rw [hr.position]
    exact sound _ h.sound
  have mark : ∀ st, K.mark st w.producer w.ledger → K.mark st w'.producer w'.ledger := by
    intro st h
    rw [hr.producer]
    exact K.markStable st _ _ _ hr.ledger h
  have finished : ∀ m, Finished K m w → Finished K m w' := by
    intro m h
    refine ⟨hr.position ▸ h.position, ?_⟩
    rw [hr.position]
    exact sound _ h.sound
  have calm := K.calmStable _ _ hr.ledger
  cases st with
  | fresh =>
    obtain ⟨⟨hp, hh⟩, hcalm⟩ := hs
    exact ⟨⟨by rw [hr.position, hr.committed, hp], by rw [hr.handled, hr.committed, hh]⟩,
      calm hcalm⟩
  | idle =>
    rcases hs with hs | hs
    · exact Or.inl (hr.running hs)
    · refine Or.inr ⟨?_, calm hs.2⟩
      rw [hr.position]
      exact sound _ hs.1
  | ready =>
    have h := sound _ hs.1
    rw [← hr.position] at h
    exact ⟨h, calm hs.2⟩
  | closing => trivial
  | busy m => exact ⟨held m hs.1, calm hs.2⟩
  | done m => exact ⟨finished m hs.1, calm hs.2⟩
  | diverted m => exact ⟨finished m hs.1, calm hs.2⟩
  | ran m => exact ⟨⟨held m hs.1.1, mark _ hs.1.2⟩, calm hs.2⟩
  | divert m => exact ⟨⟨held m hs.1.1, mark _ hs.1.2⟩, calm hs.2⟩
  | queued m => exact ⟨⟨held m hs.1.1, mark _ hs.1.2⟩, calm hs.2⟩
  | flushed m => exact ⟨⟨held m hs.1.1, mark _ hs.1.2⟩, calm hs.2⟩

/-- Goodness up to a bound is goodness below it. -/
theorem good_of_le {p n n' : Nat} {l : Ledger S} (hle : n ≤ n') (hg : K.good p n' l) :
    K.good p n l := by
  induction hle with
  | refl => exact hg
  | step _ ih => exact ih (K.anti p _ l hg)

theorem Sound.inv {top : Nat → Nat} {w : World S} (hs : Sound K top w) :
    (outline E K).inv w := fun p =>
  ⟨good_of_le (hs.committed p) (hs.good p), good_of_le (hs.handled p) (hs.good p)⟩

end Offsets

section Calls

variable {E K} {C : Conditions SinkAns S} {c : Consumer Sink SinkAns}

theorem messageAt_fields {p o : Nat} {m : Message} (h : Broker.messageAt E p o = some m) :
    m.partition = p ∧ m.offset = o := by
  obtain ⟨r, -, rfl⟩ := Option.map_eq_some_iff.mp h
  exact ⟨rfl, rfl⟩

theorem rebalance_sound {w : World S} (hs : Sound K w.position w)
    (revoked : Nat → Bool) :
    Sound K (Broker.rebalance w revoked).position (Broker.rebalance w revoked) := by
  refine ⟨fun p => ?_, fun p => ?_, fun p => ?_⟩
  all_goals simp only [Broker.rebalance]
  all_goals by_cases hr : revoked p = true
  all_goals simp only [hr, if_true, Bool.false_eq_true, if_false, le_refl]
  · exact good_of_le (hs.committed p) (hs.good p)
  · exact hs.good p
  · exact hs.committed p
  · exact hs.handled p

theorem consume_held {w : World S} (hs : Sound K w.position w) {m : Message}
    (hm : Broker.messageAt E m.partition (w.position m.partition) = some m) :
    Held E K m (Broker.advance w m) := by
  have ho := (messageAt_fields hm).2
  refine ⟨ho ▸ hm, Function.update_self .., ?_⟩
  have htop : Function.update (Broker.advance w m).position m.partition m.offset = w.position := by
    simp only [Broker.advance, Function.update_idem, ho]
    exact Function.update_eq_self _ _
  rw [htop]
  exact ⟨hs.good, hs.committed, hs.handled⟩

theorem call_consume :
    (outline E K).Call ((Broker.machine E c).restrict C) () (.consume 1000) (stage E K .ready)
      (fun d => match d with | .message m => stage E K (.busy m) | _ => stage E K .idle) := by
  intro w d w' _ ⟨hs, hcalm⟩ ⟨⟨revoked, hd⟩, _⟩
  have hr := rebalance_sound hs revoked
  refine (fun h : (outline E K).inv w' ∧ _ => ⟨h.1, fun j hj => absurd rfl hj, h.2⟩) ?_
  cases d with
  | message m =>
    obtain ⟨hm, rfl⟩ := hd
    have hheld := consume_held hr hm
    exact ⟨hheld.sound.inv, hheld, hcalm⟩
  | null => subst hd; exact ⟨hr.inv, Or.inr ⟨hr, hcalm⟩⟩
  | timedOut => subst hd; exact ⟨hr.inv, Or.inr ⟨hr, hcalm⟩⟩
  | partitionEof => subst hd; exact ⟨hr.inv, Or.inr ⟨hr, hcalm⟩⟩
  | failed e => subst hd; exact ⟨hr.inv, Or.inr ⟨hr, hcalm⟩⟩

theorem commits_sound {m : Message} {w w' : World S} (h : Finished K m w)
    (hc : Broker.Commits w m w') : Sound K w'.position w' := by
  have hmoved : ∀ f : Nat → Nat, (∀ p, f p ≤ w.position p) →
      ∀ p, Function.update f m.partition (m.offset + 1) p ≤ w.position p := by
    intro f hf p
    by_cases hp : p = m.partition
    · rw [hp, Function.update_self, h.position]
    · rw [Function.update_of_ne hp]
      exact hf p
  rcases hc with rfl | rfl
  · exact ⟨h.sound.good, h.sound.committed, hmoved _ h.sound.handled⟩
  · exact ⟨h.sound.good, hmoved _ h.sound.committed, hmoved _ h.sound.handled⟩

theorem call_commitSync (m : Message) (site : CommitSite) :
    (outline E K).Call ((Broker.machine E c).restrict C) () (.commitSync m site)
      (stage E K (.done m)) (fun _ => stage E K .idle) := by
  intro w _ w' _ ⟨hs, hcalm⟩ ⟨hc, _⟩
  have hsound := commits_sound hs hc
  have hledger : w'.ledger = w.ledger := by rcases hc with rfl | rfl <;> rfl
  exact ⟨hsound.inv, fun j hj => absurd rfl hj, Or.inr ⟨hsound, hledger ▸ hcalm⟩⟩

theorem call_start :
    (outline E K).Call ((Broker.machine E c).restrict C) () (.storeRunning true)
      (stage E K .fresh) (fun _ => stage E K .idle) := by
  intro w _ w' hi ⟨⟨hp, hh⟩, hcalm⟩ ⟨hc, _⟩
  obtain rfl := hc
  have hs : Sound K w.position { w with running := true } := by
    refine ⟨fun p => ?_, fun p => ?_, fun p => ?_⟩
    · simp only [hp]
      exact (hi p).1
    · simp only [hp, le_refl]
    · simp only [hp, hh, le_refl]
  exact ⟨hs.inv, fun j hj => absurd rfl hj, Or.inr ⟨hs, hcalm⟩⟩

theorem record_sink (l : Ledger S) (e : LogEvent) : (Broker.record l e).sink = l.sink := by
  cases e with
  | recordProcessed m => rfl
  | routedToDlq t m e => rfl
  | _ => rfl

/-- A log line that finishes the message in hand. -/
theorem call_log (hk : Settles E K C c) (e : LogEvent) {m : Message} {P : World S → Prop}
    (hP : ∀ w, P w → Held E K m w)
    (hgood : ∀ w, P w → K.good m.partition (m.offset + 1) (Broker.record w.ledger e)) :
    (outline E K).Call ((Broker.machine E c).restrict C) () (.log e)
      (fun w => P w ∧ K.calm w.ledger.sink)
      (fun _ w => Finished K m w ∧ K.calm w.ledger.sink) := by
  intro w _ w' _ ⟨hs, hcalm⟩ ⟨hc, _⟩
  obtain rfl := hc
  have hheld := (hP w hs).ledger (l := Broker.record w.ledger e)
    (fun p n => hk.record p n _ e)
  refine ⟨hheld.sound.inv, fun j hj => absurd rfl hj, hheld.finish (hgood w hs), ?_⟩
  exact record_sink w.ledger e ▸ hcalm

theorem call_produce (hk : Settles E K C c) (m : Message) (topic body : Bytes)
    (key : Option Bytes) :
    (outline E K).Call ((Broker.machine E c).restrict C) () (.produce m topic body key)
      (stage E K (.divert m))
      (fun r => match r with
        | .ok _ => stage E K (.queued m)
        | .error _ => stage E K (.diverted m)) := by
  intro w r w' hi ⟨⟨hheld, hmark⟩, hcalm⟩ ⟨hc, hC⟩
  cases r with
  | error e =>
    obtain rfl := hc
    exact ⟨hi, fun j hj => absurd rfl hj,
      hheld.finish (hk.refused m topic body key e w' w' hheld hmark hC), hcalm⟩
  | ok _ =>
    obtain rfl := hc
    have hq := hheld.ledger (l := Broker.enqueue w.ledger m) (fun p n => hk.enqueue p n _ m)
    exact ⟨hq.sound.inv, fun j hj => absurd rfl hj,
      ⟨hq, hk.produced m topic body key w _ hheld hmark hC⟩, hcalm⟩

theorem held_stable {m : Message} {P : Ledger S → Prop}
    (stable : ∀ l l', K.rely l l' → P l → P l') :
    (outline E K).Stable () (fun w => Held E K m w ∧ P w.ledger) := by
  intro w w' hr ⟨hh, hp⟩
  refine ⟨⟨hh.at_, hr.position ▸ hh.position, ?_⟩, stable _ _ hr.ledger hp⟩
  rw [hr.position]
  exact hh.sound.transfer hr.committed hr.handled (fun p n => K.goodStable p n _ _ hr.ledger)

/-- The rule for a sink call: it may change what the sink shows, but nothing that the
messages before the one in hand have already made good. -/
theorem call_sink {m : Message} {o : Sink} {P : Ledger S → Prop}
    {R : SinkAns o → Ledger S → Prop}
    (ho : ∀ t a s, Held E K m t → P t.ledger → E.sinkCall o t.ledger.sink a s →
      C.call () (.sink o) t a (Broker.withLedger t (Broker.withSink t.ledger s)) →
      (∀ p n, (p = m.partition → n ≤ m.offset) → K.good p n t.ledger →
        K.good p n (Broker.withSink t.ledger s)) ∧ R a (Broker.withSink t.ledger s)) :
    (outline E K).Call ((Broker.machine E c).restrict C) () (.sink o)
      (fun w => Held E K m w ∧ P w.ledger) (fun a w => Held E K m w ∧ R a w.ledger) := by
  intro t a t' _ ⟨hh, hp⟩ ⟨⟨s, he, ht'⟩, hC⟩
  subst ht'
  obtain ⟨hgood, hR⟩ := ho t a s hh hp he hC
  have held : Held E K m (Broker.withLedger t (Broker.withSink t.ledger s)) := by
    refine ⟨hh.at_, hh.position, fun p => ?_, hh.sound.committed, hh.sound.handled⟩
    refine hgood p _ ?_ (hh.sound.good p)
    intro hp
    rw [hp, Function.update_self]
  exact ⟨held.sound.inv, fun j hj => absurd rfl hj, held, hR⟩

/-- A sink call that changes nothing keeps what is said of the ledger. -/
theorem call_same {m : Message} {op : Sink} {P : Ledger S → Prop}
    (same : ∀ s a s', E.sinkCall op s a s' → s' = s) :
    (outline E K).Call ((Broker.machine E c).restrict C) () (.sink op)
      (fun w => Held E K m w ∧ P w.ledger) (fun _ w => Held E K m w ∧ P w.ledger) := by
  apply call_sink (R := fun _ => P)
  intro t a s _ hp he _
  obtain rfl := same _ a s he
  exact ⟨fun _ _ _ hg => hg, hp⟩

/-- A claim that does not look at the sink survives whatever a program does to it. -/
theorem safe_embed {m : Message}
    (hgood : ∀ p n l s, K.good p n l → K.good p n (Broker.withSink l s))
    (prog : Prog Sink SinkAns Bytes Unit) {w : World S} (hw : Held E K m w) :
    (outline E K).safe ((Broker.machine E c).restrict C) () (prog.embed .sink (fun _ a => a))
      (fun _ => Held E K m) (fun _ => Held E K m) w := by
  induction prog generalizing w with
  | ret _ => exact hw
  | raise e => exact hw
  | ask op k ih =>
    have hcall : (outline E K).Call ((Broker.machine E c).restrict C) () (.sink op)
        (fun w => Held E K m w ∧ True) (fun _ w => Held E K m w ∧ True) :=
      call_sink (P := fun _ => True) (R := fun _ _ => True)
        (fun _ _ s _ _ _ _ => ⟨fun p n _ hg => hgood p n _ s hg, trivial⟩)
    apply Outline.safe_ask (held_stable (P := fun _ => True) (fun _ _ _ _ => trivial)) hcall
      ⟨hw, trivial⟩
    exact fun a t ht => ih a ht.1

/-- The calls that change nothing leave the world as it is. -/
theorem call_still (op : RunOp Sink) (w : World S) (a : RunAns SinkAns op) (w' : World S)
    (hop : Still op) (h : Broker.call E op w a w') : w' = w := by
  cases op with
  | log e =>
    cases e with
    | recordProcessed m => exact absurd hop id
    | routedToDlq t m e => exact absurd hop id
    | _ => exact h
  | storeRunning b => exact absurd hop id
  | consume n => exact absurd hop id
  | sink op => exact absurd hop id
  | produce m t b k => exact absurd hop id
  | commitSync m s => exact absurd hop id
  | loadRunning => exact h.1
  | serdesDeserialize d => exact h.1
  | hasProducer => exact h.1
  | _ => exact h

theorem annotated (hk : Settles E K C c) :
    Annotated (outline E K) ((Broker.machine E c).restrict C) () c E.serdes (stage E K) where
  refl := fun _ w => ⟨rfl, rfl, rfl, rfl, id, K.refl _⟩
  stable := stage_stable
  still := fun op w a w' hop h => call_still op w a w' hop h.1
  registry := fun _ _ _ _ h => h.1.2
  start := call_start
  load := by
    intro w b w' _ hs ⟨⟨_, hb⟩, _⟩
    rcases hs with hr | hs
    · rw [hb, hr]
      trivial
    · cases b with
      | false => trivial
      | true => exact hs
  consume := call_consume
  stopped := fun _ _ _ _ _ h => Or.inl h.1.2.symm
  process := fun m doc key w hd hkey hw => hk.process m doc key w hd hkey hw.1 hw.2
  processed := fun m => call_log hk _ (fun _ h => h.1)
    (fun w h => hk.processed m w.producer w.ledger h.1.at_ h.1.good h.2)
  unparseable := fun m w _ w' hd _ hs h => ⟨⟨hs.1, hk.unparseable m w w' hd hs.1 h.2⟩, hs.2⟩
  exhausted := fun m e w _ w' _ hs h => ⟨⟨hs.1, hk.exhausted m e w w' hs.1 h.2⟩, hs.2⟩
  noProducer := by
    intro m w w' _ ⟨⟨hheld, hmark⟩, hcalm⟩ ⟨⟨_, hb⟩, hC⟩
    rw [← hb] at hmark
    exact ⟨hheld.finish (hk.noProducer m w w' hheld hmark hC), hcalm⟩
  produce := call_produce hk
  flush := fun m w _ w' _ hs h => ⟨⟨hs.1.1, hk.flushed m w w' hs.1.1 hs.1.2 h.2⟩, hs.2⟩
  routed := fun topic m e => call_log hk _ (fun _ h => h.1)
    (fun w h => hk.routed topic m e w.producer w.ledger h.1.at_ h.1.good h.2)
  committed := fun m => call_commitSync m .processed
  dropped := fun m site _ => call_commitSync m site

theorem env_step (hk : Settles E K C c) {w w' : World S} (h : Broker.Env E w w')
    (hC : C.env w w') : Rely K w w' := by
  have hl := hk.env w w' h hC
  cases h with
  | stop => exact ⟨rfl, rfl, rfl, rfl, fun _ => rfl, hl⟩
  | deliver _ => exact ⟨rfl, rfl, rfl, rfl, id, hl⟩
  | drop _ => exact ⟨rfl, rfl, rfl, rfl, id, hl⟩
  | sink _ => exact ⟨rfl, rfl, rfl, rfl, id, hl⟩

theorem valid (hk : Settles E K C c) :
    (outline E K).Valid ((Broker.machine E c).restrict C) where
  refl := fun _ => (annotated hk).refl ()
  trans := by
    intro _ w w₁ w₂ h h'
    exact ⟨h'.position.trans h.position, h'.committed.trans h.committed,
      h'.handled.trans h.handled, h'.producer.trans h.producer,
      fun hr => h'.running (h.running hr), K.trans _ _ _ h.ledger h'.ledger⟩
  stable := fun _ n => stage_stable (stageOf n)
  code := fun _ n _ hs => (annotated hk).safe_run n hs
  env := by
    intro w w' hi ⟨h, hC⟩
    have hr := env_step hk h hC
    refine ⟨fun p => ?_, fun _ => hr⟩
    rw [hr.committed, hr.handled]
    exact ⟨K.goodStable _ _ _ _ hr.ledger (hi p).1, K.goodStable _ _ _ _ hr.ledger (hi p).2⟩
  crash := by
    intro _ w w' hi ⟨⟨producer, s, he, hw⟩, hC⟩
    subst hw
    have hg := fun p => hk.crash w s p (w.committed p) hC he (hi p).1
    exact ⟨fun p => ⟨hg p, hg p⟩, fun j hj => absurd rfl hj, ⟨rfl, rfl⟩, hk.restart w s he⟩

/-- In every reachable state of a run that meets the condition, what lies below the
committed offsets, and below what was last given to `commitSync`, is good. -/
theorem good_of_reach (hk : Settles E K C c) {producer : Bool} {s : S}
    (h₀ : ∀ p, K.good p 0 (Broker.fresh producer s).ledger) (hcalm : K.calm s)
    {cfg : Machine.Config Unit (RunOp Sink) (RunAns SinkAns) Bytes Node (World S)}
    (h : ((Broker.machine E c).restrict C).Reach (Broker.fresh producer s) cfg) (p : Nat) :
    K.good p (cfg.shared.committed p) cfg.shared.ledger ∧
      K.good p (cfg.shared.handled p) cfg.shared.ledger :=
  ((valid hk).reach (fun p => ⟨h₀ p, h₀ p⟩) (fun _ => ⟨⟨rfl, rfl⟩, hcalm⟩) h).1 p

end Calls

end CdcPipeline.Proofs.BrokerOutline
