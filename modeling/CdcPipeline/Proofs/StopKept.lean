import CdcPipeline.Library.Outline
import CdcPipeline.Model.Shutdown
import CdcPipeline.Proofs.RunAsks

namespace CdcPipeline.Proofs.StopKept

open Library Text Model KafkaConsumerBase Shutdown RunAsks

variable {Sink : Worker → Type} {SinkAns : ∀ k, Sink k → Type}

abbrev Config (SinkAns : ∀ k, Sink k → Type) :=
  Machine.Config Thread (MainOp Sink) (MainAns SinkAns) Bytes Point Shutdown

/-- A worker's thread at the condition of its loop. -/
def loopCondition (k : Worker) (c : Consumer (Sink k) (SinkAns k)) : MainProg SinkAns Point :=
  guarded k (c.run .head)

/-- A worker's thread at the beginning of its loop's body. -/
def loopBody (k : Worker) (c : Consumer (Sink k) (SinkAns k)) : MainProg SinkAns Point :=
  guarded k (do
    iteration c.parse c.cfg c.processRecord
    return .head)

/-- The step starts an iteration of the worker's loop. -/
def Starts (k : Worker) (c : Consumer (Sink k) (SinkAns k)) (x y : Config SinkAns) : Prop :=
  x.threads (.worker k) = loopCondition k c ∧ y.threads (.worker k) = loopBody k c

/-- Once `Stop` has returned, `running_` is false and no iteration starts. -/
def Kept (c : ∀ k, Consumer (Sink k) (SinkAns k)) (x : Config SinkAns) : Prop :=
  ∀ k, x.shared.stopped k = true →
    x.shared.running k = false ∧ ∀ y, (machine c).Step x y → ¬ Starts k (c k) x y

/-- `Stop` is called of a consumer whose `Run` has already set `running_`. -/
def stopsAfterEntry : Machine.Condition Thread (MainOp Sink) (MainAns SinkAns) Shutdown where
  call := fun _ op w _ _ => match op with
    | .stop k => w.entered k = true
    | _ => True
  env := fun _ _ => True
  crash := fun _ _ => True

/-- A consumer that was stopped had entered its `Run`, and `running_` is false. -/
def Quelled (w : Shutdown) : Prop :=
  ∀ k, w.stopped k = true → w.entered k = true ∧ w.running k = false

/-- A thread before the first statement of its `Run` has not entered it. -/
def assertion : Thread → Point → Shutdown → Prop
  | .worker k, .start, w | .worker k, .run .start, w => w.entered k = false
  | _, _, _ => True

/-- Only its own thread enters a consumer's `Run`. -/
def Rely : Thread → Shutdown → Shutdown → Prop
  | .main, _, _ => True
  | .worker k, w, w' => w'.entered k = w.entered k

def outline : Outline Thread Point Shutdown where
  inv := Quelled
  rely := Rely
  node := assertion

variable {c : ∀ k, Consumer (Sink k) (SinkAns k)}

theorem rely_refl (i : Thread) (w : Shutdown) : Rely i w w := by
  cases i with
  | main => trivial
  | worker k => rfl

theorem stable_true (i : Thread) : outline.Stable i (fun _ => True) := fun _ _ _ h => h

/-- Any call but `Stop` and those that store `running_`. -/
def Plain : MainOp Sink → Prop
  | .stop _ => False
  | .run _ op => Flagless op
  | _ => True

theorem effect_plain {o : MainOp Sink} (ho : Plain o) {w w' : Shutdown} {a : MainAns SinkAns o}
    (h : effect o w a w') :
    w'.entered = w.entered ∧ w'.running = w.running ∧ w'.stopped = w.stopped := by
  have same : w' = w → w'.entered = w.entered ∧ w'.running = w.running ∧
      w'.stopped = w.stopped := by
    rintro rfl
    exact ⟨rfl, rfl, rfl⟩
  cases o with
  | launch k =>
    obtain rfl := h
    exact ⟨rfl, rfl, rfl⟩
  | finish k =>
    obtain rfl := h
    exact ⟨rfl, rfl, rfl⟩
  | stop k => exact absurd ho id
  | loadShutdownRequested => exact same h.1
  | join k => exact same h.1
  | begin k => exact same h.1
  | run k op =>
    cases op with
    | storeRunning b => exact absurd ho id
    | loadRunning => exact same h.1
    | _ => exact same h
  | _ => exact same h

/-- What is said of the consumers entered survives a plain call. -/
theorem call_plain {i : Thread} {o : MainOp Sink} (ho : Plain o) {P : Shutdown → Prop}
    (hP : ∀ w w', w'.entered = w.entered → P w → P w') :
    outline.Call ((machine c).restrict stopsAfterEntry) i o P (fun _ => P) := by
  rintro w a w' hi hw ⟨h, -⟩
  obtain ⟨hentered, hrunning, hstopped⟩ := effect_plain ho h
  refine ⟨fun k hk => ?_, fun j _ => ?_, hP w w' hentered hw⟩
  · rw [hentered, hrunning]
    exact hi k (hstopped ▸ hk)
  · cases j with
    | main => trivial
    | worker k => exact congrFun hentered k

/-- `Stop` quells a consumer that has entered its `Run`. -/
theorem call_stop (k : Worker) :
    outline.Call ((machine c).restrict stopsAfterEntry) .main (.stop k) (fun _ => True)
      (fun _ _ => True) := by
  rintro w a w' hi - ⟨rfl, hentered⟩
  refine ⟨fun j hj => ?_, fun j _ => ?_, trivial⟩
  · by_cases h : j = k
    · subst h
      exact ⟨hentered, Function.update_self ..⟩
    · simp only [Function.update_of_ne h] at hj ⊢
      exact hi j hj
  · cases j with
    | main => trivial
    | worker k => rfl

/-- The first statement of `Run` sets the flag of a consumer that was not stopped. -/
theorem call_enter (k : Worker) :
    outline.Call ((machine c).restrict stopsAfterEntry) (.worker k)
      (.run k (.storeRunning true)) (fun w => w.entered k = false) (fun _ _ => True) := by
  rintro w a w' hi hnot ⟨rfl, -⟩
  refine ⟨fun j hj => ?_, fun j hj => ?_, trivial⟩
  · have hne : j ≠ k := by
      rintro rfl
      exact absurd ((hi j hj).1.symm.trans hnot) (by decide)
    simp only [Function.update_of_ne hne]
    exact hi j hj
  · cases j with
    | main => trivial
    | worker l =>
      have hne : l ≠ k := fun he => hj (congrArg Thread.worker he)
      exact Function.update_of_ne hne _ _

theorem safe_plain {i : Thread} {α : Type} {p : MainProg SinkAns α} (hp : p.Asks Plain)
    (w : Shutdown) :
    outline.safe ((machine c).restrict stopsAfterEntry) i p (fun _ _ => True)
      (fun _ _ => True) w :=
  Outline.safe_asks (stable_true i) (fun _ ho => call_plain ho fun _ _ _ h => h) hp trivial

/-- Behind its first statement `Run` goes from node to node, and never back to it. -/
theorem safe_run (k : Worker) {n : Node} (hn : n ≠ .start) (w : Shutdown) :
    outline.safe ((machine c).restrict stopsAfterEntry) (.worker k)
      (((c k).run n).embed (MainOp.run k) (fun _ a => a)) (fun n _ => n ≠ .start)
      (fun _ _ => True) w := by
  have plain : ∀ o, Plain o →
      outline.Call ((machine c).restrict stopsAfterEntry) (.worker k) o (fun _ => True)
        (fun _ _ => True) := fun _ ho => call_plain ho fun _ _ _ h => h
  have asks : (((c k).run n).embed (MainOp.run k) (fun _ a => a) : MainProg SinkAns Node).Asks
      Plain := (asks_run (c k) hn).embed fun _ ho => ho
  refine Outline.safe_mono (fun _ _ h => h.1) (fun _ _ _ => trivial)
    (Outline.safe_yields (stable_true _) plain asks (yields_run (c k) n).embed trivial)

/-- The `try` around `Run` changes nothing of this. -/
theorem safe_guarded (k : Worker) {p : RunProg (SinkAns k) Node} {w : Shutdown}
    (h : outline.safe ((machine c).restrict stopsAfterEntry) (.worker k)
      (p.embed (MainOp.run k) (fun _ a => a)) (fun n _ => n ≠ .start) (fun _ _ => True) w) :
    outline.safe ((machine c).restrict stopsAfterEntry) (.worker k) (guarded k p)
      (assertion (.worker k)) (fun _ _ => True) w := by
  apply Outline.safe_seq (Outline.safe_attempt h)
  intro r t hr
  cases r with
  | ok n =>
    cases n with
    | start => exact absurd rfl hr
    | _ => trivial
  | error what =>
    apply Outline.safe_ask (stable_true _) (call_plain (o := .line (.crashed k what)) trivial
      fun _ _ _ h => h) trivial
    intro _ u _
    apply Outline.safe_ask (stable_true _) (call_plain (o := .finish k) trivial
      fun _ _ _ h => h) trivial
    exact fun _ _ _ => trivial

theorem safe_worker (k : Worker) (p : Point) {w : Shutdown} (h : assertion (.worker k) p w) :
    outline.safe ((machine c).restrict stopsAfterEntry) (.worker k) (worker k (c k) p)
      (assertion (.worker k)) (fun _ _ => True) w := by
  have stable : outline.Stable (.worker k) (fun w => w.entered k = false) :=
    fun _ _ hr hw => hr.trans hw
  cases p with
  | start =>
    apply Outline.safe_ask stable (call_plain (o := .begin k) trivial
      fun _ _ he hw => (congrFun he k).trans hw) h
    exact fun _ _ ht => ht
  | run n =>
    cases n with
    | start =>
      apply Outline.safe_ask stable (call_enter k) h
      exact fun _ _ _ => trivial
    | returned =>
      apply Outline.safe_ask (stable_true _) (call_plain (o := .finish k) trivial
        fun _ _ _ h => h) trivial
      exact fun _ _ _ => trivial
    | head => exact safe_guarded k (safe_run k (by decide) w)
    | closing => exact safe_guarded k (safe_run k (by decide) w)
  | waiting => trivial
  | stopping => trivial
  | joining => trivial
  | ended => trivial

/-- What `main` may ask for. -/
def Outer (o : MainOp Sink) : Prop := Plain o ∨ ∃ k, o = .stop k

theorem asks_constructMissing (ps : List Part) :
    (constructMissing ps : MainProg SinkAns _).Asks Plain := by
  induction ps with
  | nil => trivial
  | cons p ps ih =>
    refine ⟨trivial, fun r => ?_⟩
    cases r with
    | ok _ => exact ih
    | error what => trivial

theorem asks_startup (left attempt : Nat) (missing : List Part) :
    (startup left attempt missing : MainProg SinkAns Unit).Asks Plain := by
  induction left generalizing attempt missing with
  | zero => trivial
  | succ left ih =>
    refine Prog.Asks.bind (asks_constructMissing missing) fun ⟨missing, failed⟩ => ?_
    cases failed with
    | none => trivial
    | some what =>
      simp only
      split
      · trivial
      · exact ⟨trivial, fun _ => ⟨trivial, fun _ => ih _ _⟩⟩

theorem asks_launchAll : (launchAll : MainProg SinkAns Point).Asks Plain := by
  refine Prog.Asks.bind (asks_startup _ _ _) fun _ => ?_
  exact ⟨trivial, fun _ => ⟨trivial, fun _ => ⟨trivial, fun _ => ⟨trivial, fun _ =>
    ⟨trivial, fun _ => trivial⟩⟩⟩⟩⟩

theorem asks_main (p : Point) : (main p : MainProg SinkAns Point).Asks Outer := by
  have plain : ∀ {o : MainOp Sink}, Plain o → Outer o := Or.inl
  have stop : ∀ k, Outer (.stop k : MainOp Sink) := fun k => Or.inr ⟨k, rfl⟩
  cases p with
  | start =>
    refine Prog.Asks.bind (asks_launchAll.attempt.mono fun _ => plain) fun r => ?_
    cases r with
    | ok next => trivial
    | error what => exact ⟨plain trivial, fun _ => trivial⟩
  | waiting =>
    refine ⟨plain trivial, fun b => ?_⟩
    cases b with
    | false => exact ⟨plain trivial, fun _ => trivial⟩
    | true => exact ⟨plain trivial, fun _ => trivial⟩
  | stopping =>
    exact ⟨stop _, fun _ => ⟨stop _, fun _ => ⟨stop _, fun _ => trivial⟩⟩⟩
  | joining =>
    exact ⟨plain trivial, fun _ => ⟨plain trivial, fun _ => ⟨plain trivial, fun _ =>
      ⟨plain trivial, fun _ => trivial⟩⟩⟩⟩
  | run n => trivial
  | ended => trivial

theorem safe_main (p : Point) (w : Shutdown) :
    outline.safe ((machine c).restrict stopsAfterEntry) .main (main p) (assertion .main)
      (fun _ _ => True) w := by
  apply Outline.safe_mono (fun p _ _ => ?_) (fun _ _ h => h) (Outline.safe_asks (stable_true _)
    (fun o ho => ?_) (asks_main p) trivial)
  · cases p with
    | run n => trivial
    | _ => trivial
  · rcases ho with hplain | ⟨k, rfl⟩
    · exact call_plain hplain fun _ _ _ h => h
    · exact call_stop k

theorem valid : outline.Valid ((machine c).restrict stopsAfterEntry) where
  refl := rely_refl
  trans := by
    intro i w w₁ w₂ h₁ h₂
    cases i with
    | main => trivial
    | worker k => exact Eq.trans h₂ h₁
  stable := by
    intro i p w w' hr hp
    cases i with
    | main => cases p <;> trivial
    | worker k =>
      cases p with
      | start => exact Eq.trans hr hp
      | run n =>
        cases n with
        | start => exact Eq.trans hr hp
        | _ => trivial
      | _ => trivial
  code := by
    intro i p w hp
    cases i with
    | main => exact safe_main p w
    | worker k => exact safe_worker k p hp
  env := by
    rintro w w' hi ⟨⟨⟩, -⟩
    refine ⟨hi, fun i => ?_⟩
    cases i with
    | main => trivial
    | worker k => rfl
  crash := fun _ _ _ _ h => absurd h.1 id

/-- A stopped consumer's loop condition fails. -/
theorem not_starts {k : Worker} {x y : Config SinkAns} (h : x.shared.running k = false)
    (hstep : (machine c).Step x y) : ¬ Starts k (c k) x y := by
  rintro ⟨hx, hy⟩
  have hne : loopCondition k (c k) ≠ loopBody k (c k) := nofun
  have moved : ∀ {i : Thread} {p : MainProg SinkAns Point} {w : Shutdown},
      y = x.resume i p w → i = .worker k := by
    rintro i p w rfl
    by_contra hi
    rw [x.resume_ne (fun he => hi he.symm), hx] at hy
    exact hne hy
  cases hstep with
  | @call i o f a w at_ eff =>
    obtain rfl := moved rfl
    rw [hx] at at_
    cases at_
    obtain ⟨-, rfl⟩ := eff
    rw [x.resume_self, h] at hy
    exact absurd hy nofun
  | @jump i n at_ =>
    obtain rfl := moved rfl
    rw [hx] at at_
    exact absurd at_ nofun
  | env eff => exact hne (hx.symm.trans hy)
  | crash eff => exact eff

/-- No `Stop` is lost in a run in which it comes after the consumer's `Run` has begun. -/
theorem stop_kept (c : ∀ k, Consumer (Sink k) (SinkAns k)) (requested : Bool)
    {x : Config SinkAns}
    (h : ((machine c).restrict stopsAfterEntry).Reach (fresh requested) x) : Kept c x := by
  have hq : Quelled x.shared := by
    refine (valid.reach (fun k hk => ?_) (fun i => ?_) h).1
    · contradiction
    · cases i with
      | main => trivial
      | worker k => rfl
  exact fun k hk => ⟨(hq k hk).2, fun y hy => not_starts (hq k hk).2 hy⟩

/-- Some answer to every call of a sink. -/
def idleSink : (k : Worker) → (op : SinkOf k) → AnsOf k op
  | .esIndexer, .request _ => ⟨200, [], []⟩
  | .esIndexer, .log _ => ()
  | .redisUpdater, .contextUsable | .notifier, .contextUsable => true
  | .redisUpdater, .redisConnect | .notifier, .redisConnect => .ok ()
  | .redisUpdater, .command _ | .notifier, .command _ => some .nil
  | .redisUpdater, .log _ | .notifier, .log _ => ()

/-- Some answer to every call of `Run` that leaves `running_` alone. -/
def idle (k : Worker) : (op : RunOp (SinkOf k)) → RunAns (AnsOf k) op
  | .loadRunning => false
  | .consume _ => .null
  | .serdesDeserialize _ => .conversionFailed
  | .sink op => idleSink k op
  | .systemClock => (0 : Int)
  | .hasProducer => false
  | .produce .. => .error []
  | .storeRunning _ | .sleepFor _ | .poll _ | .flush _ | .commitSync .. | .close | .log _ => ()

/-- Answers for a run in which every part is constructed at once. -/
def serve : Handler (MainOp SinkOf) (MainAns AnsOf) Shutdown
  | .construct _, w => (.ok (), w)
  | .launch k, w => ((), { w with launched := Function.update w.launched k true })
  | .loadShutdownRequested, w => (w.requested, w)
  | .stop k, w => ((), { w with
      running := Function.update w.running k false
      stopped := Function.update w.stopped k true })
  | .run k (.storeRunning b), w => ((), { w with
      running := Function.update w.running k b
      entered := Function.update w.entered k true })
  | .run k .loadRunning, w => (w.running k, w)
  | .run k op, w => (idle k op, w)
  | .finish k, w => ((), { w with finished := Function.update w.finished k true })
  | .sleepFor _, w | .join _, w | .line _, w | .begin _, w => ((), w)

def sampleConsumers : (k : Worker) → Consumer (SinkOf k) (AnsOf k) :=
  consumers (bytes "http://es") (bytes "orders") (fun _ => .ok .null)

/-- The three threads enter `Run`, and then `main` finds the shutdown requested. -/
theorem reach_entered : ∃ x, ((machine sampleConsumers).restrict stopsAfterEntry).Reach
    (fresh true) x ∧ x.shared.stopped .esIndexer = true := by
  have h₁ := (.init : ((machine sampleConsumers).restrict stopsAfterEntry).Reach (fresh true) _)
  have h₂ := h₁.node serve (i := .main) (n := .start) (m := .waiting) rfl
    (by repeat' constructor) rfl
  have enter : ∀ k {x}, ((machine sampleConsumers).restrict stopsAfterEntry).Reach (fresh true) x →
      x.threads (.worker k) = worker k (sampleConsumers k) .start → x.shared.launched k = true →
      ((machine sampleConsumers).restrict stopsAfterEntry).Reach (fresh true)
        (x.resume (.worker k) (worker k (sampleConsumers k) (.run .head)) { x.shared with
          running := Function.update x.shared.running k true
          entered := Function.update x.shared.entered k true }) := by
    intro k x hx hat hlaunched
    have hbegin := hx.node serve (i := Thread.worker k) (n := .start) (m := .run .start) hat
      ⟨⟨⟨rfl, hlaunched⟩, trivial⟩, trivial⟩ rfl
    have hstore := hbegin.node serve (i := Thread.worker k) (n := .run .start) (m := .run .head)
      (x.resume_self _ _ _) ⟨⟨rfl, trivial⟩, trivial⟩ rfl
    rw [Machine.Config.resume_resume] at hstore
    exact hstore
  have h₃ := enter .notifier (enter .redisUpdater (enter .esIndexer h₂ rfl rfl) rfl rfl) rfl rfl
  have h₄ := h₃.node serve (i := .main) (n := .waiting) (m := .stopping) rfl
    (by repeat' constructor) rfl
  have h₅ := h₄.node serve (i := .main) (n := .stopping) (m := .joining) rfl
    (by repeat' constructor) rfl
  exact ⟨_, h₅, rfl⟩

theorem stop_kept_entered : ∃ x : Config AnsOf, x.shared.stopped .esIndexer = true ∧
    Kept sampleConsumers x ∧ x.shared.running .esIndexer = false := by
  obtain ⟨x, hx, hstopped⟩ := reach_entered
  have hkept := stop_kept sampleConsumers true hx
  exact ⟨x, hstopped, hkept, (hkept .esIndexer hstopped).1⟩

/-- `main` finds the shutdown requested and stops the consumers before their threads have
begun; the first of them then sets `running_`. -/
theorem reach_late : ∃ x, (machine sampleConsumers).Reach (fresh true) x ∧
    x.threads (.worker .esIndexer) = loopCondition .esIndexer (sampleConsumers .esIndexer) ∧
      x.shared.stopped .esIndexer = true ∧ x.shared.running .esIndexer = true := by
  have h₁ := (.init : (machine sampleConsumers).Reach (fresh true) _)
  have h₂ := h₁.node serve (i := .main) (n := .start) (m := .waiting) rfl
    (by repeat' constructor) rfl
  have h₃ := h₂.node serve (i := .main) (n := .waiting) (m := .stopping) rfl
    (by repeat' constructor) rfl
  have h₄ := h₃.node serve (i := .main) (n := .stopping) (m := .joining) rfl
    (by repeat' constructor) rfl
  have h₅ := h₄.node serve (i := .worker .esIndexer) (n := .start) (m := .run .start) rfl
    (by repeat' constructor) rfl
  have h₆ := h₅.node serve (i := .worker .esIndexer) (n := .run .start) (m := .run .head) rfl
    (by repeat' constructor) rfl
  exact ⟨_, h₆, rfl, rfl, rfl⟩

theorem starts_of_running {k : Worker} {x : Config SinkAns}
    (h : x.threads (.worker k) = loopCondition k (c k)) (hr : x.shared.running k = true) :
    ∃ y, (machine c).Step x y ∧ Starts k (c k) x y := by
  refine ⟨_, .call (i := .worker k) (o := .run k .loadRunning) (a := true) (s := x.shared) h ?_, h,
    x.resume_self _ _ _⟩
  exact ⟨rfl, hr.symm⟩

/-- The stopped consumer runs, and goes on to consume. -/
theorem stop_lost : ∃ x, (machine sampleConsumers).Reach (fresh true) x ∧
    ¬ Kept sampleConsumers x ∧ x.shared.stopped .esIndexer = true ∧
      ∃ y, (machine sampleConsumers).Step x y ∧
        Starts .esIndexer (sampleConsumers .esIndexer) x y := by
  obtain ⟨x, hx, hat, hstopped, hrunning⟩ := reach_late
  refine ⟨x, hx, fun h => ?_, hstopped, starts_of_running hat hrunning⟩
  exact absurd ((h .esIndexer hstopped).1.symm.trans hrunning) (by decide)

end CdcPipeline.Proofs.StopKept
