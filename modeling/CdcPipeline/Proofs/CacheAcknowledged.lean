import CdcPipeline.Proofs.BrokerRuns
import CdcPipeline.Proofs.FleetOutline
import CdcPipeline.Proofs.FleetRuns
import CdcPipeline.Proofs.SinkPrograms

namespace CdcPipeline.Proofs.CacheAcknowledged

open Library Text Versioned Model KafkaConsumerBase Debezium RunOutline FleetOutline
open RedisCache SinkPrograms

variable {ι : Type}

/-- RedisUpdaters over one Redis: connections fail, replies are lost, and commands
whose client gave up may arrive at any later time. -/
def setting (ι : Type) (delivers : Message → Prop) (serdes : Bytes → AvroResult → Prop) :
    FleetSetting ι RedisOp RedisAns RedisNet where
  delivers := delivers
  serdes := serdes
  sinkCall _ := RedisNet.call RedisNet.Eventual
  sinkEnv := RedisNet.Arrives
  sinkCrash _ s s' := s' = s

/-- The topic's messages carry well-formed events, whatever is decoded of them, and
the events of one order have LSNs of their own. A message that decodes to nothing,
such as a tombstone, carries none. -/
structure WellFormed (delivers : Message → Prop) (serdes : Bytes → AvroResult → Prop)
    (parse : Bytes → Except Bytes Json) (event : Message → Option Event) : Prop where
  carries : ∀ m doc, delivers m → Decodes parse serdes m.payload (some doc) →
    ∃ e, event m = some e ∧ e.record = doc
  distinct : ∀ m m' e e', delivers m → delivers m' → event m = some e → event m' = some e' →
    e.id = e'.id → e.lsn = e'.lsn → e = e'

section

variable (delivers : Message → Prop) (event : Message → Option Event)

def Known (e : Event) : Prop := ∃ m, delivers m ∧ event m = some e

/-- What an order shows is what some event of it left. -/
structure CellOf (r : Redis) (id : Bytes) (c : Cell Nat (Option Bytes)) : Prop where
  shows_ : Shows r id c
  known : ∀ x, c = some x → ∃ e, Known delivers event e ∧ e.id = id ∧ offered e = x

/-- The event, or a newer one of its order, is what Redis shows. -/
def Reflected (e : Event) (s : RedisNet) : Prop :=
  ∃ c, CellOf delivers event s.redis e.id c ∧ AtLeast e.lsn c

structure Inv (s : RedisNet) : Prop where
  cells : ∀ id, isUuid id = true → ∃ c, CellOf delivers event s.redis id c
  late : ∀ c ∈ s.late, ∃ e, Known delivers event e ∧ command e = c

def claim (ι : Type) : Claim ι RedisNet where
  inv := Inv delivers event
  rely _ s s' := ∀ e, Reflected delivers event e s → Reflected delivers event e s'
  ran _ m s := ∀ e, event m = some e → Reflected delivers event e s
  acked m s := ∀ e, event m = some e → Reflected delivers event e s
  refl _ _ _ h := h
  trans _ _ _ _ h h' e hr := h' e (h e hr)
  ranStable _ _ _ _ hr h e he := hr e (h e he)

variable {delivers event}

theorem exec_cell {e : Event} (he : Known delivers event e) {r : Redis} {id : Bytes}
    (hid : isUuid id = true) {c : Cell Nat (Option Bytes)} (h : CellOf delivers event r id c) :
    ∃ c', CellOf delivers event (Redis.exec (command e) r).2 id c' ∧
      (∀ v, AtLeast v c → AtLeast v c') ∧ (e.id = id → AtLeast e.lsn c') := by
  by_cases hne : e.id = id
  · subst hne
    refine ⟨offer c (offered e), ⟨exec_shows e h.shows_, ?_⟩, fun v hv => hv.offer _, ?_⟩
    · intro x hx
      rcases offer_cases c (offered e) with ho | ho
      · exact h.known x (ho ▸ hx)
      · rw [ho] at hx
        exact ⟨e, he, rfl, Option.some.inj hx⟩
    · exact fun _ => offer_atLeast c (offered e)
  · exact ⟨c, ⟨exec_shows_ne e hid (Ne.symm hne) h.shows_, h.known⟩, fun _ hv => hv,
      fun he => absurd he hne⟩

theorem exec_inv {e : Event} (he : Known delivers event e) {s : RedisNet}
    (h : Inv delivers event s) : Inv delivers event (s.exec (command e)) := by
  refine ⟨fun id hid => ?_, h.late⟩
  obtain ⟨c, hc⟩ := h.cells id hid
  obtain ⟨c', hc', -⟩ := exec_cell he hid hc
  exact ⟨c', hc'⟩

theorem exec_keeps {e : Event} (he : Known delivers event e) {s : RedisNet} {e' : Event}
    (h : Reflected delivers event e' s) : Reflected delivers event e' (s.exec (command e)) := by
  obtain ⟨c, hc, hv⟩ := h
  obtain ⟨c', hc', hkeep, -⟩ := exec_cell he e'.uuid hc
  exact ⟨c', hc', hkeep _ hv⟩

theorem exec_reflected {e : Event} (he : Known delivers event e) {s : RedisNet}
    (h : Inv delivers event s) : Reflected delivers event e (s.exec (command e)) := by
  obtain ⟨c, hc⟩ := h.cells e.id e.uuid
  obtain ⟨c', hc', -, hself⟩ := exec_cell he e.uuid hc
  exact ⟨c', hc', hself rfl⟩

theorem exec_step {e : Event} (he : Known delivers event e) {others : ι → Prop} {s : RedisNet}
    (h : Inv delivers event s) :
    Keeps (claim delivers event ι) others s (s.exec (command e)) :=
  ⟨exec_inv he h, fun _ _ _ => exec_keeps he, fun _ ha e' h' => exec_keeps he (ha e' h')⟩

theorem late_step {e : Event} (he : Known delivers event e) {others : ι → Prop} {s : RedisNet}
    (h : Inv delivers event s) :
    Keeps (claim delivers event ι) others s { s with late := command e :: s.late } := by
  refine ⟨⟨h.cells, ?_⟩, fun _ _ _ hr => hr, fun _ ha => ha⟩
  intro c hc
  rcases List.mem_cons.mp hc with rfl | hc
  · exact ⟨e, he, rfl⟩
  · exact h.late c hc

theorem arrives_step {s s' : RedisNet} (h : Inv delivers event s) (ha : RedisNet.Arrives s s') :
    Keeps (claim delivers event ι) (fun _ => True) s s' := by
  cases ha with
  | command sent =>
    obtain ⟨e, he, rfl⟩ := h.late _ sent
    have hinv := exec_inv he h
    refine ⟨⟨hinv.cells, ?_⟩, ?_, ?_⟩
    · exact fun c hc => h.late c (List.mem_of_mem_erase hc)
    · exact fun _ _ e' hr => exec_keeps he hr
    · exact fun _ ha e' h' => exec_keeps he (ha e' h')

end

section

variable {delivers : Message → Prop} {serdes : Bytes → AvroResult → Prop}
  {parse : Bytes → Except Bytes Json} {event : Message → Option Event} {topic : Bytes}

theorem inert {P : RedisNet → Prop}
    (stable : ∀ s s', (∀ e, Reflected delivers event e s → Reflected delivers event e s') →
      P s → P s') (i : ι) :
    Inert (outline (setting ι delivers serdes) (claim delivers event ι))
      (Fleet.machine (setting ι delivers serdes) (fun _ => RedisUpdater.consumer topic parse)) i
      (fun w => P w.sink) where
  stable := fun w w' hr hp => stable _ _ hr hp
  contextUsable := call_sink fun s a s' hi hp h => by
    obtain rfl : s' = s := h
    exact ⟨keeps_same hi, hp⟩
  redisConnect := call_sink fun s a s' hi hp h => by
    obtain rfl : s' = s := h
    exact ⟨keeps_same hi, hp⟩
  log e := call_sink fun s a s' hi hp h => by
    obtain rfl : s' = s := h
    exact ⟨keeps_same hi, hp⟩

/-- A reply that is no error comes from an execution, so the event is reflected. -/
theorem call_command {e : Event} (he : Known delivers event e) (i : ι) :
    (outline (setting ι delivers serdes) (claim delivers event ι)).Call
      (Fleet.machine (setting ι delivers serdes) (fun _ => RedisUpdater.consumer topic parse)) i
      (.sink (.command (command e))) (fun _ => True)
      (fun reply w => True ∧ (Succeeded reply → Reflected delivers event e w.sink)) := by
  apply call_sink (E := setting ι delivers serdes) (o := .command (command e)) (P := fun _ => True)
    (R := fun reply s => True ∧ (Succeeded reply → Reflected delivers event e s))
  intro s reply s' hi _ hc
  have unanswered : ∀ s : RedisNet, True ∧ (Succeeded none → Reflected delivers event e s) := by
    refine fun s => ⟨trivial, ?_⟩
    intro ⟨r, hr, _⟩
    contradiction
  cases hc with
  | late => exact ⟨late_step he hi, unanswered _⟩
  | prompt answer =>
    cases answer with
    | replied => exact ⟨exec_step he hi, trivial, fun _ => exec_reflected he hi⟩
    | replyLost => exact ⟨exec_step he hi, unanswered _⟩
    | notExecuted => exact ⟨keeps_same hi, unanswered _⟩
    | refused str =>
      refine ⟨keeps_same hi, trivial, ?_⟩
      intro ⟨r, hr, hne⟩
      exact absurd (Option.some.inj hr).symm (hne str)

theorem settles (hw : WellFormed delivers serdes parse event) :
    Settles (setting ι delivers serdes) (claim delivers event ι)
      (fun _ => RedisUpdater.consumer topic parse) where
  process := by
    intro i m doc key w hd _ hm
    obtain ⟨e, he, rfl⟩ := hw.carries m doc hm hd
    apply Outline.safe_mono (Q := fun _ t => Reflected delivers event e t.sink)
      (X := fun _ _ => True)
    · intro _ t ht
      refine ⟨hm, fun e' he' => ?_⟩
      rw [he] at he'
      exact Option.some.inj he' ▸ ht
    · exact fun _ _ _ => hm
    · exact safe_redisUpdater (inert (P := fun _ => True) (fun _ _ _ h => h) i)
        (inert (P := Reflected delivers event e) (fun _ _ hr h => hr e h) i) e key m.offset
        (call_command ⟨m, hm, he⟩ i) trivial
  acked := fun _ _ _ _ _ h => h
  env := fun _ _ hi ha => arrives_step hi ha
  crash := by
    intro i s s' hi h
    obtain rfl : s' = s := h
    exact keeps_same hi

/-- An acknowledged event is reflected in the cache, in every reachable state: its
order shows an event at least as new, and exactly what that event leaves. -/
theorem acknowledged_reflected [DecidableEq ι]
    (hw : WellFormed delivers serdes parse event) (now : Nat)
    {cfg : Machine.Config ι (RunOp RedisOp) (RunAns RedisAns) Bytes Node (Fleet RedisNet)}
    (h : (Fleet.machine (setting ι delivers serdes)
      (fun _ => RedisUpdater.consumer topic parse)).Reach ⟨[], Redis.empty now, []⟩ cfg)
    (m : Message) (hm : m ∈ cfg.shared.acknowledged) (e : Event) (he : event m = some e) :
    ∃ e', Known delivers event e' ∧ e'.id = e.id ∧ e.lsn ≤ e'.lsn ∧
      cfg.shared.sink.redis.get (RedisUpdater.redisKey e.id ++ bytes ":lsn") =
        some (intText e'.lsn) ∧
      cfg.shared.sink.redis.get (RedisUpdater.redisKey e.id) = e'.text ∧
      ∀ e'', Known delivers event e'' → e''.id = e.id → e''.lsn = e'.lsn → e'' = e' := by
  have h₀ : Inv delivers event ⟨Redis.empty now, []⟩ :=
    ⟨fun id _ => ⟨none, shows_empty now id, fun _ hx => by contradiction⟩,
      fun _ hc => absurd hc List.not_mem_nil⟩
  obtain ⟨c, hc, y, rfl, hle⟩ := (inv_of_reach (settles hw) h₀ h).2 m hm e he
  obtain ⟨e', hk, hid, rfl⟩ := hc.known y rfl
  refine ⟨e', hk, hid, hle, hc.shows_.2.1, hc.shows_.2.2, ?_⟩
  intro e'' ⟨m'', hm'', he''⟩ hid'' hlsn
  obtain ⟨m', hm', he'⟩ := hk
  exact hw.distinct m'' m' e'' e' hm'' hm' he'' he' (hid''.trans hid.symm) hlsn

end

def sampleStored : Event := sampleUpsert 1 one_bound

def sampleDeleted : Event := sampleDelete 2 two_bound

def sampleMessage (offset : Nat) (e : Event) : Message :=
  ⟨bytes "orders", 0, offset, none, some (e.payload.getD [])⟩

def sampleEvents (m : Message) : Option Event :=
  if m = sampleMessage 0 sampleStored then some sampleStored
  else if m = sampleMessage 1 sampleDeleted then some sampleDeleted
  else none

def sampleDelivers (m : Message) : Prop :=
  m = sampleMessage 0 sampleStored ∨ m = sampleMessage 1 sampleDeleted

/-- The first command is on its way when its client gives up, the others are executed. -/
def sampleSink : Handler RedisOp RedisAns RedisNet
  | .contextUsable, s => (true, s)
  | .redisConnect, s => (.ok (), s)
  | .command c, s =>
    if s.late.isEmpty then (none, { s with late := c :: s.late })
    else (some (Redis.exec c s.redis).1, s.exec c)
  | .log _, s => ((), s)

theorem sampleSink_allowed (op : RedisOp) (s : RedisNet) :
    RedisNet.call RedisNet.Eventual op s (sampleSink op s).1 (sampleSink op s).2 := by
  cases op with
  | command c =>
    simp only [sampleSink]
    split
    · exact .late
    · exact .prompt .replied
  | _ => rfl

theorem sampleEvents_stored : sampleEvents (sampleMessage 0 sampleStored) = some sampleStored :=
  if_pos rfl

theorem sampleEvents_deleted : sampleEvents (sampleMessage 1 sampleDeleted) = some sampleDeleted :=
  rfl

theorem sample_wellFormed :
    WellFormed sampleDelivers BrokerRuns.plain BrokerRuns.parse sampleEvents where
  carries := by
    rintro m doc (rfl | rfl) hd
    · exact ⟨_, sampleEvents_stored, BrokerRuns.decodes_payload (by decide) hd⟩
    · exact ⟨_, sampleEvents_deleted, BrokerRuns.decodes_payload (by decide) hd⟩
  distinct := by
    rintro m m' e e' (rfl | rfl) (rfl | rfl) he he' _ hlsn
    all_goals
      simp only [sampleEvents_stored, sampleEvents_deleted, Option.some.injEq] at he he'
      subst he he'
      first | rfl | exact absurd hlsn (by decide)

/-- One updater stores the order at its second try, another deletes it, and then the command of
the first try arrives. -/
theorem acknowledged_reflected_once :
    ∃ cfg, (Fleet.machine (setting Bool sampleDelivers BrokerRuns.plain)
        (fun _ => RedisUpdater.consumer (bytes "orders") BrokerRuns.parse)).Reach
        ⟨[], Redis.empty 0, []⟩ cfg ∧
      sampleMessage 0 sampleStored ∈ cfg.shared.acknowledged ∧
      sampleMessage 1 sampleDeleted ∈ cfg.shared.acknowledged ∧ cfg.shared.sink.late = [] ∧
      ∃ e', Known sampleDelivers sampleEvents e' ∧ e'.id = sampleId ∧ 1 ≤ e'.lsn ∧
        cfg.shared.sink.redis.get (RedisUpdater.redisKey sampleId ++ bytes ":lsn") =
          some (intText e'.lsn) ∧
        cfg.shared.sink.redis.get (RedisUpdater.redisKey sampleId) = e'.text ∧
        ∀ e'', Known sampleDelivers sampleEvents e'' → e''.id = sampleId → e''.lsn = e'.lsn →
          e'' = e' := by
  obtain ⟨cfg₁, hc₁, hs₁, hothers⟩ := FleetRuns.reach_pass (w := ⟨[], Redis.empty 0, []⟩)
    (E := setting Bool sampleDelivers BrokerRuns.plain)
    (c := fun _ => RedisUpdater.consumer (bytes "orders") BrokerRuns.parse)
    .init rfl (fun _ => .conversionFailed) sampleSink (i := false) rfl
    (m := sampleMessage 0 sampleStored) (.inl rfl) (fun _ => rfl) sampleSink_allowed
    (by decide +kernel)
  obtain ⟨cfg, hc, hs, -⟩ := FleetRuns.reach_pass hc₁ hs₁ (fun _ => .conversionFailed)
    sampleSink (i := true) (hothers true (by decide)) (m := sampleMessage 1 sampleDeleted)
    (.inr rfl) (fun _ => rfl) sampleSink_allowed (by decide +kernel)
  have hlate : RedisCache.command sampleStored ∈ cfg.shared.sink.late := by
    rw [hs]
    decide +kernel
  have hfirst : sampleMessage 0 sampleStored ∈ cfg.shared.acknowledged := by
    rw [hs]
    decide +kernel
  have hsecond : sampleMessage 1 sampleDeleted ∈ cfg.shared.acknowledged := by
    rw [hs]
    decide +kernel
  have hnone : cfg.shared.sink.late.erase (RedisCache.command sampleStored) = [] := by
    rw [hs]
    decide +kernel
  have harrived := hc.step (.env ⟨_, .command hlate, rfl⟩)
  exact ⟨_, harrived, hfirst, hsecond, hnone, acknowledged_reflected sample_wellFormed 0 harrived _
    hfirst sampleStored sampleEvents_stored⟩

end CdcPipeline.Proofs.CacheAcknowledged
