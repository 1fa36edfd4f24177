import CdcPipeline.Model.StopRun
import CdcPipeline.Proofs.AttemptOutline

namespace CdcPipeline.Proofs.StopDiscipline

open Library Text Model KafkaConsumerBase StopRun RunOutline AttemptOutline

def Threw : Except Bytes Unit → Prop
  | .error _ => True
  | .ok _ => False

/-- Every attempt that `max_retries` allows was made, and threw. -/
def Exhausted (cfg : Config) (p : Passage) : Prop :=
  p.outcomes.length = cfg.maxRetries.toNat ∧ ∀ o ∈ p.outcomes, Threw o

/-- What a decoded message may meet with. -/
structure Proper (cfg : Config) (p : Passage) : Prop where
  attempts : p.outcomes.length ≤ cfg.maxRetries.toNat
  last : ∀ o ∈ p.outcomes.tail, Threw o
  committed : p.committed = true → .ok () ∈ p.outcomes ∨ Exhausted cfg p
  routed : p.routed = true → Exhausted cfg p

/-- All messages that decoded were treated properly, and all but the last were committed. -/
structure Disciplined (cfg : Config) (w : StopRun) : Prop where
  proper : ∀ p ∈ w.passages, p.unparseable = false → Proper cfg p
  earlier : ∀ p ∈ w.passages.tail, p.unparseable = false → p.committed = true

/-- A message that is left without a normal return before its attempts are used up. -/
def CutShort (cfg : Config) (p : Passage) : Prop :=
  p.unparseable = false ∧ .ok () ∉ p.outcomes ∧ p.outcomes.length < cfg.maxRetries.toNat

def Settled (p : Passage) : Prop := p.unparseable = false → p.committed = true

/-- The last message is as `P` says, and the earlier ones are settled. -/
def Last (P : Passage → Prop) (w : StopRun) : Prop :=
  ∃ p rest, w.passages = p :: rest ∧ P p ∧ ∀ q ∈ rest, Settled q

def Clean (w : StopRun) : Prop := ∀ p ∈ w.passages, Settled p

theorem Last.mono {P Q : Passage → Prop} {w : StopRun} (h : Last P w) (hPQ : ∀ p, P p → Q p) :
    Last Q w := by
  obtain ⟨p, rest, hw, hp, hrest⟩ := h
  exact ⟨p, rest, hw, hPQ p hp, hrest⟩

theorem Last.clean {P : Passage → Prop} {w : StopRun} (h : Last P w) (hP : ∀ p, P p → Settled p) :
    Clean w := by
  obtain ⟨p, rest, hw, hp, hrest⟩ := h
  intro q hq
  rw [hw] at hq
  rcases List.mem_cons.mp hq with rfl | hq
  · exact hP q hp
  · exact hrest q hq

/-- A change of the last message leaves the discipline of the others. -/
theorem onLast_step {cfg : Config} {P Q : Passage → Prop} {f : Passage → Passage} {w : StopRun}
    (hd : Disciplined cfg w) (h : Last P w)
    (hf : ∀ p, P p → Q (f p) ∧ ((f p).unparseable = false → Proper cfg (f p))) :
    Disciplined cfg (w.onLast f) ∧ Last Q (w.onLast f) := by
  obtain ⟨p, rest, hw, hp, hrest⟩ := h
  have hlast : (w.onLast f).passages = f p :: rest := by
    rw [onLast, hw]
  have hproper := hd.proper
  rw [hw] at hproper
  refine ⟨⟨fun q hq => ?_, ?_⟩, f p, rest, hlast, (hf p hp).1, hrest⟩
  · rw [hlast] at hq
    rcases List.mem_cons.mp hq with rfl | hq
    · exact (hf p hp).2
    · exact hproper q (List.mem_cons_of_mem _ hq)
  · rw [hlast]
    exact hrest

theorem consumed_step {cfg : Config} {w : StopRun} (hd : Disciplined cfg w) (hc : Clean w)
    (m : Message) : Disciplined cfg (w.consumed m) ∧
      Last (fun p => p = ⟨m, [], false, false, false⟩) (w.consumed m) := by
  refine ⟨⟨fun p hp => ?_, hc⟩, _, _, rfl, rfl, hc⟩
  rcases List.mem_cons.mp hp with rfl | hp
  · intro _
    exact ⟨Nat.zero_le _, fun _ ho => absurd ho List.not_mem_nil, nofun, nofun⟩
  · exact hd.proper p hp

/-- A message that is being tried: so many attempts have thrown, and nothing else was done. -/
def Trying (m : Message) (n : Nat) (p : Passage) : Prop :=
  p.message = m ∧ p.outcomes.length = n ∧ (∀ o ∈ p.outcomes, Threw o) ∧
    p.unparseable = false ∧ p.routed = false ∧ p.committed = false

/-- The last attempt returned. -/
def Returned (cfg : Config) (p : Passage) : Prop :=
  ∃ rest, p.outcomes = .ok () :: rest ∧ rest.length < cfg.maxRetries.toNat ∧
    (∀ o ∈ rest, Threw o) ∧ p.routed = false

def assertion (cfg : Config) : Phase → StopRun → Prop
  | .fresh, _ => False
  | .idle, w => Clean w ∨ w.running = false
  | .ready, w => Clean w
  | .closing, _ => True
  | .fetched m, w => Last (fun p => p = ⟨m, [], false, false, false⟩) w
  | .trying m n, w => Last (Trying m n) w
  | .ran _, w | .done _, w => Last (Returned cfg) w
  | .halted _, w => w.running = false
  | .divert _ .unparseable, w => Last (fun p => p.unparseable = true) w
  | .divert _ .exhausted, w => Last (Exhausted cfg) w
  | .divert _ .processed, _ => False

/-- Only `Stop` happens around the loop. -/
structure Rely (w w' : StopRun) : Prop where
  passages : w'.passages = w.passages
  stopped : w.running = false → w'.running = false

def outline (cfg : Config) : Outline Unit Node StopRun where
  inv := Disciplined cfg
  rely := fun _ => Rely
  node := fun _ n => assertion cfg (phaseOf n)

variable {cfg : Config} {parse : Bytes → Except Bytes Json}

theorem Last.rely {P : Passage → Prop} {w w' : StopRun} (h : Last P w) (hr : Rely w w') :
    Last P w' := by
  obtain ⟨p, rest, hw, hp, hrest⟩ := h
  exact ⟨p, rest, hr.passages.trans hw, hp, hrest⟩

theorem Clean.rely {w w' : StopRun} (h : Clean w) (hr : Rely w w') : Clean w' := by
  intro p hp
  rw [hr.passages] at hp
  exact h p hp

theorem stable (ph : Phase) : (outline cfg).Stable () (assertion cfg ph) := by
  intro w w' hr h
  match ph with
  | .fresh => exact h
  | .idle => exact h.imp (fun hc => Clean.rely hc hr) hr.stopped
  | .ready => exact Clean.rely h hr
  | .closing => trivial
  | .fetched m => exact Last.rely h hr
  | .trying m n => exact Last.rely h hr
  | .ran m => exact Last.rely h hr
  | .done m => exact Last.rely h hr
  | .halted m => exact hr.stopped h
  | .divert m .unparseable => exact Last.rely h hr
  | .divert m .exhausted => exact Last.rely h hr
  | .divert m .processed => exact h

/-- A call on the last message, as a triple. -/
theorem call_onLast (cfg : Config) (parse : Bytes → Except Bytes Json) {o : RunOp ProcessOp}
    {P : Passage → Prop} {Q : RunAns ProcessAns o → Passage → Prop}
    {f : RunAns ProcessAns o → Passage → Passage}
    (ho : ∀ w a w', StopRun.call o w a w' → w' = w.onLast (f a))
    (hf : ∀ a p, P p → Q a (f a p) ∧ ((f a p).unparseable = false → Proper cfg (f a p))) :
    (outline cfg).Call (machine cfg parse) () o (Last P) (fun a => Last (Q a)) := by
  intro w a w' hi hP hc
  obtain rfl := ho w a w' hc
  obtain ⟨hd, hl⟩ := onLast_step hi hP (hf a)
  exact ⟨hd, fun j hj => absurd (Subsingleton.elim j ()) hj, hl⟩

theorem call_same {op : RunOp ProcessOp} {P Q : StopRun → Prop}
    (hop : ∀ w a w', StopRun.call op w a w' → w' = w) (hPQ : ∀ w, P w → Q w) :
    (outline cfg).Call (machine cfg parse) () op P (fun _ => Q) := by
  intro w a w' hi hP hc
  obtain rfl := hop w a w' hc
  exact ⟨hi, fun j hj => absurd (Subsingleton.elim j ()) hj, hPQ w' hP⟩

theorem Trying.proper {m : Message} {n : Nat} {p : Passage} (h : Trying m n p)
    (hn : n ≤ cfg.maxRetries.toNat) : Proper cfg p := by
  obtain ⟨-, hlen, hthrew, -, hrouted, hcommitted⟩ := h
  refine ⟨hlen ▸ hn, fun o ho => hthrew o (List.mem_of_mem_tail ho), fun hc => ?_, fun hr => ?_⟩
  · rw [hcommitted] at hc
    contradiction
  · rw [hrouted] at hr
    contradiction

theorem Returned.proper {p : Passage} (h : Returned cfg p) : Proper cfg p := by
  obtain ⟨rest, hout, hlen, hthrew, hrouted⟩ := h
  refine ⟨by rw [hout]; exact hlen, by rw [hout]; exact hthrew, fun _ => ?_, fun hr => ?_⟩
  · rw [hout]
    exact Or.inl List.mem_cons_self
  · rw [hrouted] at hr
    contradiction

theorem Exhausted.proper {p : Passage} (h : Exhausted cfg p) : Proper cfg p where
  attempts := Nat.le_of_eq h.1
  last := fun o ho => h.2 o (List.mem_of_mem_tail ho)
  committed := fun _ => Or.inr h
  routed := fun _ => h

theorem call_process (m : Message) (n : Nat) (doc : Json) (key : Bytes)
    (hn : n < cfg.maxRetries.toNat) :
    (outline cfg).Call (machine cfg parse) () (.sink (.processRecord doc key m.offset))
      (Last (Trying m n)) (fun o => Last (fun p => match o with
        | .ok _ => Returned cfg p
        | .error _ => Trying m (n + 1) p)) := by
  refine call_onLast cfg parse (o := .sink (.processRecord doc key m.offset))
    (Q := fun o p => match o with | .ok _ => Returned cfg p | .error _ => Trying m (n + 1) p)
    (fun _ _ _ hc => hc) fun o p hp => ?_
  obtain ⟨hm, hlen, hthrew, hdecoded, hrouted, hcommitted⟩ := hp
  cases o with
  | ok _ =>
    have hr : Returned cfg { p with outcomes := .ok () :: p.outcomes } :=
      ⟨p.outcomes, rfl, hlen ▸ hn, hthrew, hrouted⟩
    exact ⟨hr, fun _ => hr.proper⟩
  | error what =>
    have ht : Trying m (n + 1) { p with outcomes := .error what :: p.outcomes } := by
      refine ⟨hm, congrArg (· + 1) hlen, fun o ho => ?_, hdecoded, hrouted, hcommitted⟩
      rcases List.mem_cons.mp ho with rfl | ho
      · trivial
      · exact hthrew o ho
    exact ⟨ht, fun _ => ht.proper hn⟩

/-- Committing the last message leaves all of them settled. -/
theorem call_commit (m : Message) (site : CommitSite) {P : Passage → Prop}
    (hP : ∀ p, P p → p.unparseable = true ∨ Proper cfg { p with committed := true }) :
    (outline cfg).Call (machine cfg parse) () (.commitSync m site) (Last P)
      (fun _ w => Clean w ∨ w.running = false) := by
  intro w a w' hi hw hc
  have hstep := call_onLast cfg parse (o := .commitSync m site) (P := P)
    (Q := fun _ p => p.committed = true) (f := fun _ p => { p with committed := true })
    (fun _ _ _ hc => hc)
    (fun _ p hp => ⟨rfl, fun hdecoded => (hP p hp).resolve_left (by simpa using hdecoded)⟩)
  obtain ⟨hd, hr, hl⟩ := hstep w a w' hi hw hc
  exact ⟨hd, hr, Or.inl (hl.clean fun p hp _ => hp)⟩

theorem call_divert {op : RunOp ProcessOp} (m : Message) (site : CommitSite)
    (hop : ∀ w a w', StopRun.call op w a w' →
      w' = w.onLast (fun p => { p with routed := true }) ∨ w' = w) :
    (outline cfg).Call (machine cfg parse) () op (assertion cfg (.divert m site))
      (fun _ => assertion cfg (.divert m site)) := by
  intro w a w' hi hP hc
  have hothers : ∀ j ≠ (), (outline cfg).rely j w w' :=
    fun j hj => absurd (Subsingleton.elim j ()) hj
  rcases hop w a w' hc with rfl | rfl
  · cases site with
    | processed => exact absurd hP id
    | unparseable =>
      obtain ⟨hd, hl⟩ := onLast_step (Q := fun p => p.unparseable = true)
        (f := fun p => { p with routed := true }) hi hP
        (fun p hp => ⟨hp, fun hdecoded => absurd (hp.symm.trans hdecoded) (by decide)⟩)
      exact ⟨hd, hothers, hl⟩
    | exhausted =>
      obtain ⟨hd, hl⟩ := onLast_step (Q := Exhausted cfg)
        (f := fun p => { p with routed := true }) hi hP
        (fun p hp => ⟨hp, fun _ => Exhausted.proper (p := { p with routed := true }) hp⟩)
      exact ⟨hd, hothers, hl⟩
  · exact ⟨hi, hothers, hP⟩

/-- `Run` owes each phase what it does there. -/
theorem counted : Counted (outline cfg) (machine cfg parse) () (anyConsumer cfg parse)
    (fun _ _ => True) (assertion cfg) where
  quiet := {
    refl := fun _ _ => ⟨rfl, id⟩
    still := by
      intro op w a w' hop hc
      cases op with
      | log e => cases e <;> first | exact hc | contradiction
      | loadRunning => exact hc.1
      | _ => first | exact hc | contradiction
    registry := fun _ _ _ _ _ => trivial }
  stable := stable
  start := fun _ _ _ _ hf _ => absurd hf id
  load := by
    rintro w b w' - hidle ⟨rfl, rfl⟩
    cases hr : w'.running with
    | false => trivial
    | true => exact hidle.resolve_right (by rw [hr]; decide)
  consume := by
    intro w d w' hi hclean hc
    have hothers : ∀ j ≠ (), (outline cfg).rely j w w' :=
      fun j hj => absurd (Subsingleton.elim j ()) hj
    cases d with
    | message m =>
      obtain rfl : w' = w.consumed m := hc
      obtain ⟨hd, hl⟩ := consumed_step hi hclean m
      exact ⟨hd, hothers, hl⟩
    | null => obtain rfl : w' = w := hc; exact ⟨hi, hothers, Or.inl hclean⟩
    | timedOut => obtain rfl : w' = w := hc; exact ⟨hi, hothers, Or.inl hclean⟩
    | partitionEof => obtain rfl : w' = w := hc; exact ⟨hi, hothers, Or.inl hclean⟩
    | failed e => obtain rfl : w' = w := hc; exact ⟨hi, hothers, Or.inl hclean⟩
  decoded := by
    intro m doc w _ hf
    refine Last.mono hf fun p hp => ?_
    subst hp
    exact ⟨rfl, rfl, fun _ ho => absurd ho List.not_mem_nil, rfl, rfl, rfl⟩
  unparseable := by
    intro m _
    refine call_onLast cfg parse (o := .log (.unparseablePayloadRoutingDlq m))
      (Q := fun _ p => p.unparseable = true) (fun _ _ _ hc => hc) ?_
    exact fun _ p _ => ⟨rfl, fun hdecoded => by contradiction⟩
  process := by
    intro m n doc key w hn _ _ ht
    apply Outline.safe_ask (stable (.trying m n)) (call_process m n doc key hn) ht
    intro o t ho
    cases o with
    | ok _ => exact ho
    | error what => exact ho
  stopped := by
    rintro m n w w' - - - ⟨-, hb⟩
    exact hb.symm
  halted := by
    rintro m w b w' - hh ⟨-, rfl⟩
    exact ⟨hh, Or.inr hh⟩
  left := by
    rintro m w w' - - ⟨-, hb⟩
    exact Or.inr hb.symm
  processed := fun m => call_same (fun _ _ _ hc => hc) (fun _ h => h)
  exhausted := fun m e => call_same (fun _ _ _ hc => hc)
    (fun _ h => Last.mono h fun _ hp => ⟨hp.2.1, hp.2.2.1⟩)
  produce := fun m site topic body key => call_divert m site (fun _ _ _ hc => Or.inl hc)
  routed := fun topic m e site => call_divert m site (fun _ _ _ hc => Or.inr hc)
  committed := by
    intro m
    refine call_commit m .processed fun p hp => Or.inr ?_
    exact Returned.proper (p := { p with committed := true }) hp
  dropped := by
    intro m site
    cases site with
    | processed => exact fun _ _ _ _ hf _ => absurd hf id
    | unparseable => exact call_commit m .unparseable fun p hp => Or.inl hp
    | exhausted =>
      refine call_commit m .exhausted fun p hp => Or.inr ?_
      exact Exhausted.proper (p := { p with committed := true }) hp

theorem valid : (outline cfg).Valid (machine cfg parse) where
  refl := fun _ _ => ⟨rfl, id⟩
  trans := fun _ _ _ _ h h' => ⟨h'.passages.trans h.passages, fun hs => h'.stopped (h.stopped hs)⟩
  stable := fun _ n => stable (phaseOf n)
  code := fun _ n w h => counted.safe_run n h
  env := by
    intro w w' hi he
    cases he with
    | stop => exact ⟨⟨hi.proper, hi.earlier⟩, fun _ => ⟨rfl, fun _ => rfl⟩⟩
  crash := fun _ _ _ _ hf => absurd hf id

/-- Whatever each call of `ProcessRecord` does and whenever `Stop` comes: attempts are
bounded and end with a normal return, only a message that was processed or exhausted its
attempts is committed, only the latter is produced to the dead letters, and a message that
is cut short is neither, and is the last one consumed. -/
theorem disciplined (cfg : Config) (parse : Bytes → Except Bytes Json)
    {c : Machine.Config Unit (RunOp ProcessOp) (RunAns ProcessAns) Bytes Node StopRun}
    (h : (machine cfg parse).Reach looping c) :
    Disciplined cfg c.shared ∧
      ∀ p ∈ c.shared.passages, CutShort cfg p →
        p.committed = false ∧ p.routed = false ∧ p ∉ c.shared.passages.tail := by
  have hd : Disciplined cfg c.shared := by
    refine (valid.reach ?_ (fun _ => Or.inl ?_) h).1
    · exact ⟨fun _ hp => absurd hp List.not_mem_nil, fun _ hp => absurd hp List.not_mem_nil⟩
    · exact fun _ hp => absurd hp List.not_mem_nil
  refine ⟨hd, fun p hp ⟨hdecoded, hok, hlen⟩ => ?_⟩
  have hproper := hd.proper p hp hdecoded
  have hnot : ¬ Exhausted cfg p := fun hx => absurd hx.1 (Nat.ne_of_lt hlen)
  have hcommitted : p.committed = false :=
    Bool.eq_false_iff.mpr fun hc => (hproper.committed hc).elim hok hnot
  refine ⟨hcommitted, Bool.eq_false_iff.mpr fun hr => hnot (hproper.routed hr), fun ht => ?_⟩
  rw [hd.earlier p ht hdecoded] at hcommitted
  contradiction

def sampleConfig : Config := .withDefaults (bytes "RedisUpdater") (bytes "orders")

def sampleParse : Bytes → Except Bytes Json := fun _ => .ok .null

def sampleMessage : Message := ⟨bytes "orders", 0, 0, none, some (bytes "{}")⟩

/-- `Stop` comes when a message has been consumed, and the loop ends without trying it. -/
theorem reach_stopped : ∃ c, (machine sampleConfig sampleParse).Reach looping c ∧
    c.shared = ⟨false, [⟨sampleMessage, [], false, false, false⟩]⟩ ∧
      c.threads () = .ret .head := by
  have h₁ := (.init : (machine sampleConfig sampleParse).Reach looping _)
  have h₂ := h₁.step (.call (i := ()) (o := .loadRunning) (a := true) (s := looping) rfl
    (by exact ⟨rfl, rfl⟩))
  have h₃ := h₂.step (.call (i := ()) (o := .consume 1000) (a := .message sampleMessage)
    (s := looping.consumed sampleMessage) rfl (by exact rfl))
  have h₄ := h₃.step (.env .stop)
  have h₅ := h₄.step (.call (i := ()) (o := .loadRunning) (a := false)
    (s := { looping.consumed sampleMessage with running := false }) rfl (by exact ⟨rfl, rfl⟩))
  have h₆ := h₅.step (.call (i := ()) (o := .loadRunning) (a := false)
    (s := { looping.consumed sampleMessage with running := false }) rfl (by exact ⟨rfl, rfl⟩))
  exact ⟨_, h₆, rfl, rfl⟩

theorem disciplined_stopped : ∃ c, (machine sampleConfig sampleParse).Reach looping c ∧
    c.shared.passages = [⟨sampleMessage, [], false, false, false⟩] ∧
      ∀ p ∈ c.shared.passages, CutShort sampleConfig p →
        p.committed = false ∧ p.routed = false ∧ p ∉ c.shared.passages.tail := by
  obtain ⟨c, hc, hshared, -⟩ := reach_stopped
  exact ⟨c, hc, by rw [hshared], (disciplined sampleConfig sampleParse hc).2⟩

end CdcPipeline.Proofs.StopDiscipline
