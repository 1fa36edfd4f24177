import CdcPipeline.Proofs.BrokerOutline
import CdcPipeline.Proofs.BrokerRuns
import CdcPipeline.Proofs.MailInvariant
import CdcPipeline.Proofs.SinkPrograms

namespace CdcPipeline.Proofs.MailDelivered

open Library Text Model Notifier KafkaConsumerBase RunOutline BrokerOutline SinkPrograms
open MailInvariant

/-- One notifier and its Redis. -/
def setting (topic : Bytes) (log : Nat → List (Option Bytes × Option Bytes))
    (serdes : Bytes → AvroResult → Prop) : Setting RedisOp RedisAns (Mail Unit) where
  topic := topic
  log := log
  serdes := serdes
  sinkCall := Mail.call ()
  sinkEnv := Mail.Env
  sinkCrash s s' := s' = s.crashed ()

/-- What each message of the topic asks for, whatever is decoded of it. -/
def Reads (E : Setting RedisOp RedisAns (Mail Unit)) (parse : Bytes → Except Bytes Json)
    (wants : Message → Option (Bytes × Bytes)) : Prop :=
  ∀ m doc key, Broker.messageAt E m.partition m.offset = some m →
    Decodes parse E.serdes m.payload (some doc) → Keys parse E.serdes m key →
    wanted doc key = wants m

def Sent (order status : Bytes) (s : Mail Unit) : Prop :=
  ∃ d ∈ s.sent, d.order = order ∧ d.status = status

def Mailed (key : Bytes) (s : Mail Unit) : Prop :=
  ∃ d ∈ s.sent, idempotencyKey d.order d.status = key

/-- Every committed message that asks for an email and is not in the dead-letter queue
has had it sent. -/
def NoneLost (E : Setting RedisOp RedisAns (Mail Unit)) (wants : Message → Option (Bytes × Bytes))
    (w : World (Mail Unit)) : Prop :=
  ∀ p o m, Broker.messageAt E p o = some m → o < w.committed p → m ∉ w.ledger.routed →
    ∀ order status, wants m = some (order, status) → Sent order status w.ledger.sink

/-- A key is won only by a command whose OK reaches the notifier, or after its email was
sent already; a notifier that holds an OK does not crash before it has sent the email;
and dead-lettering, once turned to, finds a producer that takes the record. -/
def claimsAnswered : Conditions RedisAns (Mail Unit) where
  call := fun _ op w a w' => match op, a with
    | .sink (.command _), none => ∀ win ∈ w'.ledger.sink.wins,
        win ∈ w.ledger.sink.wins ∨ Mailed win.key w.ledger.sink
    | .log (.unparseablePayloadRoutingDlq _), _ => w.producer = true
    | .log (.retriesExhaustedRoutingDlq ..), _ => w.producer = true
    | .produce .., .error _ => False
    | _, _ => True
  env := fun w w' => ∀ win ∈ w'.ledger.sink.wins,
    win ∈ w.ledger.sink.wins ∨ Mailed win.key w.ledger.sink
  crash := fun _ w => ∀ n win, w.ledger.sink.held () = some n →
    w.ledger.sink.wins[n]? = some win → Mailed win.key w.ledger.sink

/-- Every key that was won has been mailed, or is about to be. -/
def Covers (s : Mail Unit) : Prop :=
  ∀ win ∈ s.wins, Mailed win.key s ∨ ∃ n, s.held () = some n ∧ s.wins[n]? = some win

def Good (s : Mail Unit) : Prop := Invariant s ∧ Covers s

def Calm (s : Mail Unit) : Prop := s.held () = none

/-- Others may add wins whose email was sent, and take nothing away. -/
structure Later (l l' : Ledger (Mail Unit)) : Prop where
  good : Good l.sink → Good l'.sink
  rely : Rely () l.sink l'.sink
  sent : l.sink.sent ⊆ l'.sink.sent
  routed : l.routed ⊆ l'.routed

section

variable (E : Setting RedisOp RedisAns (Mail Unit)) (wants : Message → Option (Bytes × Bytes))

def Answered (p o : Nat) (l : Ledger (Mail Unit)) : Prop :=
  ∀ m, Broker.messageAt E p o = some m → ∀ order status, wants m = some (order, status) →
    Sent order status l.sink ∨ m ∈ l.routed

def mark : Stage → Bool → Ledger (Mail Unit) → Prop
  | .ran m, _, l => ∀ order status, wants m = some (order, status) → Sent order status l.sink
  | .divert _, producer, _ => producer = true
  | _, _, _ => True

variable {E wants}

theorem Sent.mono {order status : Bytes} {s s' : Mail Unit} (h : Sent order status s)
    (hs : s.sent ⊆ s'.sent) : Sent order status s' := by
  obtain ⟨d, hd, hrest⟩ := h
  exact ⟨d, hs hd, hrest⟩

theorem Mailed.mono {key : Bytes} {s s' : Mail Unit} (h : Mailed key s)
    (hs : s.sent ⊆ s'.sent) : Mailed key s' := by
  obtain ⟨d, hd, hrest⟩ := h
  exact ⟨d, hs hd, hrest⟩

theorem Answered.mono {p o : Nat} {l l' : Ledger (Mail Unit)} (h : Answered E wants p o l)
    (hs : l.sink.sent ⊆ l'.sink.sent) (hr : l.routed ⊆ l'.routed) :
    Answered E wants p o l' := by
  intro m hm order status hw
  rcases h m hm order status hw with h | h
  · exact Or.inl (h.mono hs)
  · exact Or.inr (hr h)

theorem Later.refl (l : Ledger (Mail Unit)) : Later l l :=
  ⟨id, Rely.refl () l.sink, List.Subset.refl _, List.Subset.refl _⟩

def claim (E : Setting RedisOp RedisAns (Mail Unit)) (wants : Message → Option (Bytes × Bytes)) :
    Claim (Mail Unit) where
  good p n l := Good l.sink ∧ ∀ o < n, Answered E wants p o l
  mark := mark wants
  calm := Calm
  rely := Later
  anti _ _ _ h := ⟨h.1, fun o ho => h.2 o (Nat.lt_succ_of_lt ho)⟩
  refl := Later.refl
  trans l l₁ l₂ h h' := ⟨fun hg => h'.good (h.good hg), h.rely.trans h'.rely,
    List.Subset.trans h.sent h'.sent, List.Subset.trans h.routed h'.routed⟩
  goodStable _ _ _ _ hr h := ⟨hr.good h.1, fun o ho => (h.2 o ho).mono hr.sent hr.routed⟩
  markStable st b l l' hr h := by
    cases st with
    | ran m => exact fun order status hw => (h order status hw).mono hr.sent
    | divert m => exact h
    | _ => trivial
  calmStable _ _ hr h := hr.rely.held.trans h

/-- A step that wins no key whose email is still to be sent. -/
theorem Covers.grow {s s' : Mail Unit} (h : Covers s) (hr : Rely () s s')
    (hsent : s.sent ⊆ s'.sent) (hnew : ∀ win ∈ s'.wins, win ∈ s.wins ∨ Mailed win.key s) :
    Covers s' := by
  intro win hwin
  rcases hnew win hwin with hold | hmailed
  · rcases h win hold with hm | ⟨n, hn, hget⟩
    · exact Or.inl (hm.mono hsent)
    · obtain ⟨rest, hrest⟩ := hr.wins
      refine Or.inr ⟨n, hr.held.trans hn, ?_⟩
      rw [← hrest]
      exact List.getElem?_append_left (List.getElem?_eq_some_iff.mp hget).1 ▸ hget
  · exact Or.inl (hmailed.mono hsent)

/-- Where nothing is held, every win has been mailed. -/
theorem Covers.calm {s : Mail Unit} (h : Covers s) (hc : Calm s) {win : Lease.Request Bytes}
    (hwin : win ∈ s.wins) : Mailed win.key s := by
  rcases h win hwin with hm | ⟨n, hn, -⟩
  · exact hm
  · rw [Calm] at hc
    rw [hc] at hn
    contradiction

/-- A claim is lost to a key that was mailed, for the same order and status. -/
theorem sent_of_lost {s : Mail Unit} (h : Good s) (hc : Calm s) {o st : Bytes}
    (notified : notifies st = true) (hlost : Lost o st s) : Sent o st s := by
  obtain ⟨l, hl, hkey⟩ := hlost
  obtain ⟨win, hwin, hwl, -⟩ := h.1.kept.excused l hl
  obtain ⟨d, hd, hdkey⟩ := h.2.calm hc hwin
  obtain ⟨n, -, -, notified', -⟩ := h.1.spent.sent d hd
  have heq : idempotencyKey d.order d.status = idempotencyKey o st := by
    rw [hdkey, hwl, hkey]
  exact ⟨d, hd, idempotencyKey_inj notified' notified heq⟩

theorem env_later {w w' : World (Mail Unit)} {topic : Bytes}
    {log : Nat → List (Option Bytes × Option Bytes)} {serdes : Bytes → AvroResult → Prop}
    (h : Broker.Env (setting topic log serdes) w w') (hC : claimsAnswered.env w w') :
    Later w.ledger w'.ledger := by
  cases h with
  | stop => exact Later.refl _
  | deliver queued => exact ⟨id, Rely.refl () _, List.Subset.refl _, List.Subset.refl _⟩
  | drop queued => exact ⟨id, Rely.refl () _, List.Subset.refl _, List.Subset.refl _⟩
  | sink eff =>
    have hsent : ∀ {s s' : Mail Unit}, Mail.Env s s' → s'.sent = s.sent ∧ Rely () s s' := by
      intro s s' he
      cases he with
      | tick elapsed => exact ⟨rfl, rfl, List.prefix_rfl, List.prefix_rfl⟩
      | @arrives c late =>
        have hg := execute_grows { s with net := { s.net with late := s.net.late.erase c } } c
        exact ⟨hg.2.1, congrFun hg.1 (), hg.2.2.2.2.1, hg.2.2.2.2.2⟩
    obtain ⟨hsame, hrely⟩ := hsent eff
    have hsub : w.ledger.sink.sent ⊆ _ := fun _ hd => hsame ▸ hd
    refine ⟨fun hg => ?_, hrely, hsub, List.Subset.refl _⟩
    exact ⟨(env_step hg.1 eff).1, hg.2.grow hrely hsub hC⟩

/-- What the notifier knows once it has the reply to a claim it made with nothing in hand. -/
def Outcome (o st : Bytes) (reply : Option Reply) (s : Mail Unit) : Prop :=
  (reply = some (.status (bytes "OK")) ∧ Holds () o st s) ∨
    (reply = some .nil ∧ Lost o st s ∧ Sent o st s ∧ Calm s) ∨
    ((reply = none ∨ ∃ str, reply = some (.error str)) ∧ Calm s)

theorem claim_outcome {s s' : Mail Unit} {o st : Bytes} {reply : Option Reply}
    (notified : notifies st = true) (h : Good s) (hc : Calm s)
    (ha : Mail.Answers () s (claimCommand o st) reply s')
    (hnew : reply = none → ∀ win ∈ s'.wins, win ∈ s.wins ∨ Mailed win.key s) :
    Good s' ∧ s.sent ⊆ s'.sent ∧ Outcome o st reply s' := by
  obtain ⟨hinv, hcases⟩ := claim_cases notified h.1 ha
  rcases hcases with ⟨hreply, rfl⟩ | ⟨hreply, rfl⟩ | ⟨herror, rfl⟩ | ⟨hnone, hrely, hsent⟩
  · refine ⟨⟨hinv, ?_⟩, List.Subset.refl _, Or.inl ⟨hreply, won_holds notified⟩⟩
    intro win hwin
    rcases List.mem_append.mp hwin with hwin | hwin
    · exact Or.inl (h.2.calm hc hwin)
    · rw [List.mem_singleton.mp hwin]
      exact Or.inr ⟨s.wins.length, rfl, by simp [won]⟩
  · have hgood : Good (denied s o st) := ⟨hinv, h.2⟩
    have hlost := denied_lost s o st
    exact ⟨hgood, List.Subset.refl _, Or.inr (Or.inl
      ⟨hreply, hlost, sent_of_lost hgood hc notified hlost, hc⟩)⟩
  · exact ⟨h, List.Subset.refl _, Or.inr (Or.inr ⟨Or.inr herror, hc⟩)⟩
  · have hsub : s.sent ⊆ s'.sent := fun _ hd => hsent ▸ hd
    exact ⟨⟨hinv, h.2.grow (hrely ()) hsub (hnew hnone)⟩, hsub,
      Or.inr (Or.inr ⟨Or.inl hnone, (hrely ()).held.trans hc⟩)⟩

/-- The email goes out, and what was held is used up. -/
theorem send_good {s : Mail Unit} (h : Good s) {o st : Bytes} (hh : Holds () o st s) :
    Good (s.send () o st) ∧ s.sent ⊆ (s.send () o st).sent ∧ Sent o st (s.send () o st) := by
  obtain ⟨n, hn, hwon⟩ := hh
  have hsub : s.sent ⊆ (s.send () o st).sent := fun _ hd => List.mem_append_left _ hd
  have hnew : ⟨o, st, s.held (), s.wins.length⟩ ∈ (s.send () o st).sent :=
    List.mem_append_right _ (List.mem_singleton.mpr rfl)
  refine ⟨⟨send_invariant h.1 hn hwon, ?_⟩, hsub, ⟨_, hnew, rfl, rfl⟩⟩
  intro win hwin
  rcases h.2 win hwin with hm | ⟨n', hn', hget⟩
  · exact Or.inl (hm.mono hsub)
  · obtain rfl := Option.some.inj (hn.symm.trans hn')
    obtain ⟨-, win', hget', hkey⟩ := hwon
    obtain rfl := Option.some.inj (hget.symm.trans hget')
    exact Or.inl ⟨_, hnew, hkey.symm⟩

theorem skip_good {s : Mail Unit} (h : Good s) {o st : Bytes} (notified : notifies st = true)
    (hlost : Lost o st s) : Good (s.skip o st) :=
  ⟨skip_invariant h.1 notified hlost, h.2⟩

end

section

variable {topic : Bytes} {log : Nat → List (Option Bytes × Option Bytes)}
  {serdes : Bytes → AvroResult → Prop} {wants : Message → Option (Bytes × Bytes)}
  {c : Consumer RedisOp RedisAns} {m : Message}

/-- The message in hand, and what is known of the sink. -/
def At (topic : Bytes) (log : Nat → List (Option Bytes × Option Bytes))
    (serdes : Bytes → AvroResult → Prop) (wants : Message → Option (Bytes × Bytes)) (m : Message)
    (P : Mail Unit → Prop) (w : World (Mail Unit)) : Prop :=
  Held (setting topic log serdes) (claim (setting topic log serdes) wants) m w ∧ P w.ledger.sink

/-- An assertion about the sink that survives what others do. -/
def Lasting (P : Mail Unit → Prop) : Prop :=
  ∀ s s', Rely () s s' → s.sent ⊆ s'.sent → P s → P s'

theorem at_stable {P : Mail Unit → Prop} (hP : Lasting P) :
    (outline (setting topic log serdes) (claim (setting topic log serdes) wants)).Stable ()
      (At topic log serdes wants m P) :=
  held_stable (P := fun l => P l.sink) fun _ _ hr hp => hP _ _ hr.rely hr.sent hp

theorem calm_lasting : Lasting Calm := fun _ _ hr _ h => hr.held.trans h

theorem sent_lasting (o st : Bytes) : Lasting (Sent o st) := fun _ _ _ hs h => h.mono hs

theorem lost_lasting (o st : Bytes) : Lasting (Lost o st) := fun _ _ hr _ h => h.stable hr

theorem holds_lasting (o st : Bytes) : Lasting (Holds () o st) := fun _ _ hr _ h => h.stable hr

theorem Lasting.and {P Q : Mail Unit → Prop} (hP : Lasting P) (hQ : Lasting Q) :
    Lasting (fun s => P s ∧ Q s) := fun s s' hr hs h => ⟨hP s s' hr hs h.1, hQ s s' hr hs h.2⟩

/-- The rule for a sink call that keeps what is good. -/
theorem call_at {o : RedisOp} {P : Mail Unit → Prop} {R : RedisAns o → Mail Unit → Prop}
    (ho : ∀ (t : World (Mail Unit)) a s, Good t.ledger.sink → P t.ledger.sink →
      Mail.call () o t.ledger.sink a s →
      claimsAnswered.call () (.sink o) t a (Broker.withLedger t (Broker.withSink t.ledger s)) →
      Good s ∧ t.ledger.sink.sent ⊆ s.sent ∧ R a s) :
    (outline (setting topic log serdes) (claim (setting topic log serdes) wants)).Call
      ((Broker.machine (setting topic log serdes) c).restrict claimsAnswered) () (.sink o)
      (At topic log serdes wants m P) (fun a => At topic log serdes wants m (R a)) := by
  apply call_sink (P := fun l => P l.sink) (R := fun a l => R a l.sink)
  intro t a s ht hp he hC
  obtain ⟨hgood, hsent, hR⟩ := ho t a s ht.good.1 hp he hC
  exact ⟨fun p n _ h => ⟨hgood, fun o ho => (h.2 o ho).mono hsent (List.Subset.refl _)⟩, hR⟩

theorem connect_call (op : RedisOp)
    (hop : op = .contextUsable ∨ op = .redisConnect ∨ op = .log .notifierRedisConnected) :
    (outline (setting topic log serdes) (claim (setting topic log serdes) wants)).Call
      ((Broker.machine (setting topic log serdes) c).restrict claimsAnswered) () (.sink op)
      (At topic log serdes wants m Calm) (fun _ => At topic log serdes wants m Calm) := by
  apply call_at (R := fun _ => Calm)
  intro t a s hgood hcalm h _
  have hs : s = t.ledger.sink := by
    rcases hop with rfl | rfl | rfl
    · exact h
    · exact h
    · exact h
  subst hs
  exact ⟨hgood, List.Subset.refl _, hcalm⟩

theorem safe_connect {w : World (Mail Unit)} (hw : At topic log serdes wants m Calm w) :
    (outline (setting topic log serdes) (claim (setting topic log serdes) wants)).safe
      ((Broker.machine (setting topic log serdes) c).restrict claimsAnswered) ()
      (embed Notifier.ensureConnected) (fun _ => At topic log serdes wants m Calm)
      (fun _ => At topic log serdes wants m Calm) w := by
  apply Outline.safe_asks (at_stable calm_lasting) (A := fun op => ∃ o, op = .sink o ∧
    (o = .contextUsable ∨ o = .redisConnect ∨ o = .log .notifierRedisConnected))
  · intro op ⟨o, ho, hkind⟩
    subst ho
    exact connect_call o hkind
  · apply Prog.Asks.embed (ensureConnected_asks (P := fun o => o = .contextUsable ∨
      o = .redisConnect ∨ o = .log .notifierRedisConnected) _ _ (Or.inl rfl) (Or.inr (Or.inl rfl))
      (Or.inr (Or.inr rfl)))
    exact fun op hop => ⟨op, rfl, hop⟩
  · exact hw

theorem claim_call {o st : Bytes} (notified : notifies st = true) :
    (outline (setting topic log serdes) (claim (setting topic log serdes) wants)).Call
      ((Broker.machine (setting topic log serdes) c).restrict claimsAnswered) ()
      (.sink (.command (claimCommand o st))) (At topic log serdes wants m Calm)
      (fun reply => At topic log serdes wants m (Outcome o st reply)) := by
  apply call_at (o := .command (claimCommand o st)) (R := Outcome o st)
  intro t reply s hgood hcalm h hC
  apply claim_outcome notified hgood hcalm h
  intro hnone
  subst hnone
  exact hC

theorem sent_call (customer o st : Bytes) (offset : Nat) :
    (outline (setting topic log serdes) (claim (setting topic log serdes) wants)).Call
      ((Broker.machine (setting topic log serdes) c).restrict claimsAnswered) ()
      (.sink (.log (.emailNotificationSent customer o st offset)))
      (At topic log serdes wants m (Holds () o st))
      (fun _ => At topic log serdes wants m (fun s => Sent o st s ∧ Calm s)) := by
  apply call_at (o := .log (.emailNotificationSent customer o st offset))
    (R := fun _ s => Sent o st s ∧ Calm s)
  intro t _ s hgood hholds h _
  obtain rfl : s = t.ledger.sink.send () o st := h
  obtain ⟨hgood', hsub, hsent⟩ := send_good hgood hholds
  exact ⟨hgood', hsub, hsent, rfl⟩

theorem skipped_call {o st : Bytes} (notified : notifies st = true) (offset : Nat) :
    (outline (setting topic log serdes) (claim (setting topic log serdes) wants)).Call
      ((Broker.machine (setting topic log serdes) c).restrict claimsAnswered) ()
      (.sink (.log (.emailNotificationSkippedDuplicate o st offset)))
      (At topic log serdes wants m (fun s => Lost o st s ∧ Sent o st s ∧ Calm s))
      (fun _ => At topic log serdes wants m (fun s => Sent o st s ∧ Calm s)) := by
  apply call_at (o := .log (.emailNotificationSkippedDuplicate o st offset))
    (R := fun _ s => Sent o st s ∧ Calm s)
  intro t _ s hgood ⟨hlost, hsent, hcalm⟩ h _
  obtain rfl : s = t.ledger.sink.skip o st := h
  exact ⟨skip_good hgood notified hlost, List.Subset.refl _, hsent, hcalm⟩

/-- Once the claim is answered, the email has been sent, now or before. -/
theorem safe_notify {o st : Bytes} (notified : notifies st = true) (customer : Bytes)
    (offset : Nat) {w : World (Mail Unit)} (hw : At topic log serdes wants m Calm w) :
    (outline (setting topic log serdes) (claim (setting topic log serdes) wants)).safe
      ((Broker.machine (setting topic log serdes) c).restrict claimsAnswered) ()
      (embed (notify o st customer offset))
      (fun _ => At topic log serdes wants m (fun s => Sent o st s ∧ Calm s))
      (fun _ => At topic log serdes wants m Calm) w := by
  apply SinkPrograms.safe_notify
    (M := (Broker.machine (setting topic log serdes) c).restrict claimsAnswered)
    (W := At topic log serdes wants m (Holds () o st))
    (L := At topic log serdes wants m (fun s => Lost o st s ∧ Sent o st s ∧ Calm s))
    (R := fun reply => At topic log serdes wants m (Outcome o st reply))
  · exact safe_connect hw
  · exact at_stable calm_lasting
  · exact at_stable (holds_lasting o st)
  · exact at_stable ((lost_lasting o st).and ((sent_lasting o st).and calm_lasting))
  · exact claim_call notified
  · intro reply t ⟨hheld, hout⟩
    rcases hout with ⟨hok, hholds⟩ | ⟨hnil, hrest⟩ | ⟨hother, hcalm⟩
    · exact Or.inl ⟨hok, hheld, hholds⟩
    · exact Or.inr (Or.inl ⟨hnil, hheld, hrest⟩)
    · exact Or.inr (Or.inr ⟨hother, hheld, hcalm⟩)
  · exact sent_call customer o st offset
  · exact skipped_call notified offset

/-- When `ProcessRecord` returns, the email its record asks for has been sent. -/
theorem safe_notifier (doc : Json) (key : Bytes) (offset : Nat) {w : World (Mail Unit)}
    (hw : At topic log serdes wants m Calm w) :
    (outline (setting topic log serdes) (claim (setting topic log serdes) wants)).safe
      ((Broker.machine (setting topic log serdes) c).restrict claimsAnswered) ()
      (embed (Notifier.processRecord doc key offset))
      (fun _ => At topic log serdes wants m (fun s =>
        (∀ o st, wanted doc key = some (o, st) → Sent o st s) ∧ Calm s))
      (fun _ => At topic log serdes wants m Calm) w := by
  -- a record that asks for no email
  have nothing : wanted doc key = none → At topic log serdes wants m (fun s =>
      (∀ o st, wanted doc key = some (o, st) → Sent o st s) ∧ Calm s) w := by
    intro hnone
    rw [hnone]
    exact ⟨hw.1, nofun, hw.2⟩
  rcases processRecord_cases doc key offset with ⟨e, h⟩ | ⟨h, hnone⟩ |
    ⟨o, st, customer, notified, hwanted, h⟩
  · rw [h]
    exact hw
  · rw [h]
    exact nothing hnone
  · rw [h]
    apply Outline.safe_mono _ (fun _ _ h => h) (safe_notify notified customer offset hw)
    intro _ t ⟨hheld, hsent, hcalm⟩
    refine ⟨hheld, fun o' st' hw' => ?_, hcalm⟩
    obtain ⟨rfl, rfl⟩ := Prod.mk.inj (Option.some.inj (hwanted.symm.trans hw'))
    exact hsent

end

section

variable {topic : Bytes} {log : Nat → List (Option Bytes × Option Bytes)}
  {serdes : Bytes → AvroResult → Prop} {parse : Bytes → Except Bytes Json}
  {wants : Message → Option (Bytes × Bytes)}

/-- One more message answered makes one more offset good. -/
theorem good_succ {E : Setting RedisOp RedisAns (Mail Unit)} {l : Ledger (Mail Unit)} {m : Message}
    (hm : Broker.messageAt E m.partition m.offset = some m)
    (hg : (claim E wants).good m.partition m.offset l)
    (ha : ∀ order status, wants m = some (order, status) →
      Sent order status l.sink ∨ m ∈ l.routed) :
    (claim E wants).good m.partition (m.offset + 1) l := by
  refine ⟨hg.1, fun o ho => ?_⟩
  rcases Nat.lt_succ_iff_lt_or_eq.mp ho with hlt | rfl
  · exact hg.2 o hlt
  · intro m' hm'
    obtain rfl := Option.some.inj (hm.symm.trans hm')
    exact ha

theorem record_good {E : Setting RedisOp RedisAns (Mail Unit)} (p n : Nat)
    (l : Ledger (Mail Unit)) (e : LogEvent) (h : (claim E wants).good p n l) :
    (claim E wants).good p n (Broker.record l e) := by
  have hsink := record_sink l e
  refine ⟨hsink ▸ h.1, fun o ho => (h.2 o ho).mono (hsink ▸ List.Subset.refl _) ?_⟩
  cases e with
  | routedToDlq t m e => exact List.subset_cons_self _ _
  | _ => exact List.Subset.refl _

theorem crash_good {s : Mail Unit} (h : Good s)
    (hC : ∀ n win, s.held () = some n → s.wins[n]? = some win → Mailed win.key s) :
    Good (s.crashed ()) := by
  refine ⟨drop_invariant h.1 (), fun win hwin => Or.inl ?_⟩
  rcases h.2 win hwin with hm | ⟨n, hn, hget⟩
  · exact hm
  · exact hC n win hn hget

theorem settles (hr : Reads (setting topic log serdes) parse wants) :
    Settles (setting topic log serdes) (claim (setting topic log serdes) wants) claimsAnswered
      (Notifier.consumer topic parse) where
  env _ _ h hC := env_later h hC
  crash := by
    intro w s p n hC hs h
    obtain rfl : s = w.ledger.sink.crashed () := hs
    exact ⟨crash_good h.1 hC, h.2⟩
  restart := by
    intro w s hs
    obtain rfl : s = w.ledger.sink.crashed () := hs
    rfl
  record := record_good
  enqueue _ _ _ _ h := h
  process := by
    intro m doc key w hd hkey hm hcalm
    apply Outline.safe_mono _ _ (safe_notifier doc key m.offset
      ⟨hm, hcalm⟩)
    · intro _ t ⟨hheld, hsent, hcalm⟩
      refine ⟨⟨hheld, fun o st hw => hsent o st ?_⟩, hcalm⟩
      rw [hr m doc key hm.at_ hd hkey, hw]
    · exact fun _ _ h => h
  processed m b l hm hg hsent :=
    good_succ hm (record_good _ _ l _ hg) fun o st hw => Or.inl (hsent o st hw)
  unparseable _ _ _ _ _ h := h
  exhausted _ _ _ _ _ h := h
  noProducer _ _ _ _ hd _ := by
    have hfalse : false = true := hd
    contradiction
  produced _ _ _ _ _ _ _ _ _ := trivial
  refused _ _ _ _ _ _ _ _ _ h := absurd h id
  flushed _ _ _ _ _ _ := trivial
  routed topic m e b l hm hg _ :=
    good_succ hm (record_good _ _ l (.routedToDlq topic m e) hg)
      fun _ _ _ => Or.inr List.mem_cons_self

/-- In every run whose claims are answered and whose dead letters are taken, a committed
message has had its email sent or is in the dead-letter queue. -/
theorem none_lost (hr : Reads (setting topic log serdes) parse wants) (producer : Bool) (now : Nat)
    {cfg : Machine.Config Unit (RunOp RedisOp) (RunAns RedisAns) Bytes Node (World (Mail Unit))}
    (h : ((Broker.machine (setting topic log serdes) (Notifier.consumer topic parse)).restrict
      claimsAnswered).Reach (Broker.fresh producer (Mail.empty now)) cfg) :
    NoneLost (setting topic log serdes) wants cfg.shared := by
  intro p o m hm ho hrouted order status hw
  have hempty : Good (Mail.empty now) :=
    ⟨empty_invariant now, fun _ h => absurd h List.not_mem_nil⟩
  have hgood := (good_of_reach (settles hr)
    (fun _ => ⟨hempty, fun _ ho => absurd ho (Nat.not_lt_zero _)⟩) rfl h p).1
  rcases hgood.2 o ho m hm order status hw with h | h
  · exact h
  · exact absurd h hrouted

end

def sampleEvent : Debezium.Event := Debezium.sampleUpsert 1 Debezium.one_bound

/-- A topic of one message, and a registry that is never asked. -/
def sampleSetting : Setting RedisOp RedisAns (Mail Unit) :=
  setting (bytes "orders") (fun p => if p = 0 then [(none, some (bytes "x"))] else [])
    (fun _ _ => True)

/-- A parser, on the one payload of this topic. -/
def sampleParse (_ : Bytes) : Except Bytes Json := .ok sampleEvent.record

def sampleWants (_ : Message) : Option (Bytes × Bytes) :=
  some (Debezium.sampleId, bytes "SHIPPED")

theorem sample_reads : Reads sampleSetting sampleParse sampleWants := by
  intro m doc key hm ⟨avro, _, hd⟩ _
  obtain ⟨r, hr, hm⟩ := Option.map_eq_some_iff.mp hm
  have hmem : r ∈ [((none : Option Bytes), some (bytes "x"))] := by
    have hlog := List.mem_of_getElem? hr
    by_cases hp : m.partition = 0
    · simpa [sampleSetting, setting, hp] using hlog
    · simp [sampleSetting, setting, hp] at hlog
  obtain rfl := List.mem_singleton.mp hmem
  rw [← hm] at hd
  obtain rfl := Option.some.inj hd
  rfl

def answering : Handler RedisOp RedisAns (Mail Unit)
  | .contextUsable, s => (true, s)
  | .redisConnect, s => (.ok (), s)
  | .command c, s => (some (Redis.exec c s.net.redis).1, (s.execute c).hold ()
      (Redis.exec c s.net.redis).1)
  | .log e, s => ((), s.logged () e)

/-- The first reply is lost on its way back. -/
def losingFirst : Handler RedisOp RedisAns (Mail Unit)
  | .command c, s => if s.wins.isEmpty then (none, s.execute c) else answering (.command c) s
  | op, s => answering op s

theorem answering_allowed (op : RedisOp) (s : Mail Unit) :
    Mail.call () op s (answering op s).1 (answering op s).2 := by
  cases op with
  | command c => exact .replied
  | _ => rfl

theorem losingFirst_allowed (op : RedisOp) (s : Mail Unit) :
    Mail.call () op s (losingFirst op s).1 (losingFirst op s).2 := by
  cases op with
  | command c =>
    simp only [losingFirst]
    split
    · exact .replyLost
    · exact .replied
  | _ => rfl

/-- The world after one pass of the notifier over the topic. -/
def afterOne (sink : Handler RedisOp RedisAns (Mail Unit)) : World (Mail Unit) :=
  (((Notifier.consumer (bytes "orders") sampleParse).run .head).run
    (BrokerRuns.serve sampleSetting (fun _ => .conversionFailed) sink (.ok ()))
    (BrokerRuns.started true (Mail.empty 0))).2

theorem none_lost_answered :
    ∃ cfg, ((Broker.machine sampleSetting (Notifier.consumer (bytes "orders")
        sampleParse)).restrict claimsAnswered).Reach (Broker.fresh true (Mail.empty 0)) cfg ∧
      cfg.shared.committed 0 = 1 ∧ cfg.shared.ledger.sink.sent.length = 1 ∧
      NoneLost sampleSetting sampleWants cfg.shared := by
  obtain ⟨cfg, hc, hs⟩ := BrokerRuns.reach_pass (E := sampleSetting)
    (c := Notifier.consumer (bytes "orders") sampleParse)
    (C := claimsAnswered) true (Mail.empty 0)
    (fun _ => .conversionFailed) answering (.ok ())
    (fun _ => trivial) answering_allowed (w := afterOne answering) (by repeat' constructor)
    (by repeat' constructor) rfl
  refine ⟨cfg, hc, ?_, ?_, none_lost sample_reads true 0 hc⟩
  · rw [hs]
    rfl
  · rw [hs]
    rfl

/-- A claim that was won before its reply was lost is taken for a duplicate by the next
attempt: the message is committed as processed and its email is never sent. -/
theorem lost_reply_loses_email :
    ∃ cfg, Reads sampleSetting sampleParse sampleWants ∧
      (Broker.machine sampleSetting (Notifier.consumer (bytes "orders") sampleParse)).Reach
        (Broker.fresh true (Mail.empty 0)) cfg ∧
      ¬ NoneLost sampleSetting sampleWants cfg.shared := by
  obtain ⟨cfg, hc, hs⟩ := BrokerRuns.reach_pass (E := sampleSetting)
    (c := Notifier.consumer (bytes "orders") sampleParse)
    (C := BrokerRuns.anything) true (Mail.empty 0)
    (fun _ => .conversionFailed) losingFirst (.ok ())
    (fun _ => trivial) losingFirst_allowed (w := afterOne losingFirst)
    (Prog.along_of_forall (fun _ _ => trivial) _ _)
    (Prog.along_of_forall (fun _ _ => trivial) _ _) rfl
  refine ⟨cfg, sample_reads, hc.of_restrict, fun h => ?_⟩
  have hcommitted : cfg.shared.committed 0 = 1 := by rw [hs]; rfl
  have hrouted : cfg.shared.ledger.routed = [] := by rw [hs]; rfl
  obtain ⟨d, hd, -⟩ := h 0 0 ⟨bytes "orders", 0, 0, none, some (bytes "x")⟩ rfl (by omega)
    (hrouted ▸ List.not_mem_nil) _ _ rfl
  have hsent : cfg.shared.ledger.sink.sent = [] := by rw [hs]; rfl
  rw [hsent] at hd
  contradiction

end CdcPipeline.Proofs.MailDelivered
