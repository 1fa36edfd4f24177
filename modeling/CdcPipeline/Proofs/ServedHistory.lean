import CdcPipeline.Proofs.ApiWorkers
import CdcPipeline.Proofs.CalmServer

namespace CdcPipeline.Proofs.ServedHistory

open Library Text History Model ApiProcess ApiServer ServedOrders GeneratedOrders ApiOutline
  ApiSteps ApiCalls ApiRoutes ApiWorkers

variable {ι κ : Type} [DecidableEq ι] [DecidableEq κ] {E : Setting κ} {table₀ : Table}
  {s s' : ApiProcess ι κ}

section Runs

/-- The calls of `Start` and `Stop`, and those around `RunWorker`. -/
def Around : ProcessOp κ → Prop
  | .server _ | .worker _ => False
  | _ => True

/-- None of them shows in what is claimed. -/
theorem call_around {th : Thread ι κ} {o : ProcessOp κ} (h : Around o) :
    (outline E table₀).Call (machine E) th o (fun _ => True) (fun _ _ => True) := by
  intro s a s' hi _ hc
  have same : ∀ s' : ApiProcess ι κ, s'.table = s.table → s'.transaction = s.transaction →
      s'.turn = s.turn → s'.history = s.history → s'.sent = s.sent → s'.inbox = s.inbox →
      s'.outbox = s.outbox → Inv E table₀ s' ∧ (∀ j ≠ th, Rely j s s') ∧ True := by
    intro s' ht htrans hturn hh hsent hin hout
    refine ⟨inv_same hi ht hturn hh hsent hin hout,
      fun j _ => ⟨⟨fun _ hid => ht ▸ hid, [], ?_⟩, ?_⟩, trivial⟩
    · simp [hsent]
    · exact fun i _ => ⟨by rw [hturn], fun n => by rw [hh], by rw [mine, mine, htrans], fun _ => ht⟩
  cases th with
  | server i => cases o <;> first | exact absurd h id | exact absurd hc id
  | worker k =>
    cases o with
    | enter => obtain ⟨rfl, -⟩ := hc; exact same s' rfl rfl rfl rfl rfl rfl rfl
    | finish => obtain rfl := hc; exact same _ rfl rfl rfl rfl rfl rfl rfl
    | _ => first | exact absurd h id | exact absurd hc id
  | main =>
    cases o with
    | join k => obtain ⟨rfl, -⟩ := hc; exact same s' rfl rfl rfl rfl rfl rfl rfl
    | server o => exact absurd h id
    | worker o => exact absurd h id
    | enter => exact absurd hc id
    | finish => exact absurd hc id
    | _ => obtain rfl := hc; exact same _ rfl rfl rfl rfl rfl rfl rfl

omit [DecidableEq κ] in
theorem launchAll_asks (ks : List κ) : (launchAll ks).Asks Around := by
  induction ks with
  | nil => trivial
  | cons k ks ih => exact ⟨trivial, fun _ => ih⟩

omit [DecidableEq κ] in
theorem joinAll_asks (ks : List κ) : (joinAll ks).Asks Around := by
  induction ks with
  | nil => trivial
  | cons k ks ih => exact ⟨trivial, fun _ => ih⟩

omit [DecidableEq κ] in
theorem main_asks (cfg : LoadGenerator.Config) (apiHost : Bytes) (apiPort : Int) (workers : List κ)
    (p : Point) : (main cfg apiHost apiPort workers p).Asks Around := by
  cases p with
  | start =>
    exact ⟨trivial, fun _ => (launchAll_asks _).bind fun _ => ⟨trivial, fun _ => trivial⟩⟩
  | started =>
    exact ⟨trivial, fun _ => (joinAll_asks _).bind fun _ =>
      ⟨trivial, fun _ => ⟨trivial, fun _ => trivial⟩⟩⟩
  | _ => trivial

omit [DecidableEq κ] in
theorem any_stable (th : Thread ι κ) : (outline E table₀).Stable th fun _ => True :=
  fun _ _ _ _ => trivial

theorem safe_worker (libs : Libraries E) (k : κ) (p : Point) (h : node (.worker k) p s) :
    (outline E table₀).safe (machine E) (.worker k) (worker E.lib E.cfg (E.threadId k) p)
      (node (.worker k)) (fun _ _ => True) s := by
  cases p with
  | start =>
    exact Outline.safe_ask (any_stable _) (call_around (o := .enter) trivial) trivial
      fun _ _ _ => ⟨Nat.zero_le _, nofun⟩
  | looping ids =>
    refine Outline.safe_seq (Outline.safe_embed (safe_tick libs _ h)) ?_
    intro res s h
    cases res with
    | some ids => exact h ids rfl
    | none =>
      exact Outline.safe_ask (any_stable _) (call_around (o := .finish) trivial) trivial
        fun _ _ _ => trivial
  | started => trivial
  | ended => trivial

theorem valid (libs : Libraries E) : (outline (ι := ι) E table₀).Valid (machine E) where
  refl := rely_refl
  trans _ _ _ _ := rely_trans
  stable := node_stable
  code th p s h := by
    cases th with
    | server i => cases p with
      | start =>
        exact Outline.safe_seq (Outline.safe_mono (fun _ _ h => h) (fun _ _ _ => trivial)
          (Outline.safe_embed (safe_serve libs h))) fun _ _ h => h
      | _ => trivial
    | worker k => exact safe_worker libs k p h
    | main =>
      refine Outline.safe_mono (fun _ _ _ => trivial) (fun _ _ _ => trivial)
        (Outline.safe_asks (any_stable _) (fun _ ho => call_around ho) ?_ trivial)
      exact main_asks ..
  env s s' hi h := by
    obtain ⟨may⟩ := h
    exact ⟨inv_send hi _ (libs.clients _ may) nofun, fun _ =>
      ⟨⟨fun _ h => h, [(.outside, _)], rfl⟩, fun _ _ => ⟨rfl, fun _ => rfl, rfl, fun _ => rfl⟩⟩⟩
  crash _ _ _ _ h := absurd h id

omit [DecidableEq κ] in
theorem inv_fresh : Inv E table₀ (fresh table₀ : ApiProcess ι κ) where
  linear := linearized_nil
  ahead _ _ _ := rfl
  clean _ h := absurd h (by simp [fresh])
  workers _ _ h := absurd h (by simp [fresh])
  arrived _ h := absurd h (by simp [fresh, arrived, requests])
  once := by simp [fresh, arrived, requests]
  found _ _ _ _ h := absurd h (by simp [fresh])
  outbox _ _ h := absurd h (by simp [fresh])

variable {c : Machine.Config (Thread ι κ) (ProcessOp κ) ProcessAns Exn Point (ApiProcess ι κ)}

/-- The outline holds in every state of every run. -/
theorem holds (libs : Libraries E) (h : (machine E).Reach (fresh table₀) c) :
    (outline E table₀).Holds (machine E) c := by
  refine (valid libs).reach inv_fresh ?_ h
  intro th
  cases th with
  | server i => exact ⟨rfl, rfl⟩
  | _ => trivial

/-- Whatever the threads do in between, the requests are served as if one after another by the
store, each once, between its arrival and its response. -/
theorem linearizable (libs : Libraries E) (h : (machine E).Reach (fresh table₀) c) :
    Linearized OrderStore.step (rules E.lib E.cols) table₀ c.shared.history c.shared.table ∧
      (∀ t x, .called t x ∈ c.shared.history →
        ∃ sender, c.shared.sent[x.connection]? = some (sender, x.request)) ∧
      (∀ t x t' x', .called t x ∈ c.shared.history → .called t' x' ∈ c.shared.history →
        x.connection = x'.connection → t = t') ∧
      ∀ n a, (n, a) ∈ c.shared.outbox → ∃ t x, x.connection = n ∧
        .called t x ∈ c.shared.history ∧ .answered t a ∈ c.shared.history := by
  obtain ⟨hi, -⟩ := holds libs h
  refine ⟨hi.linear, ?_, ?_, hi.outbox⟩
  · exact fun t x hc => hi.arrived x (List.mem_append_right _ (mem_requests hc))
  · intro t x t' x' hc hc' hsame
    have honce := hi.once
    rw [arrived, List.map_append] at honce
    exact requests_ticket (List.nodup_append.mp honce).2.1 hc hc' hsame

end Runs

open CalmServer in
theorem linearizable_sample : ∃ c,
    (machine (ι := Unit) sampleSetting).Reach (fresh OrderStore.empty) c ∧
    c.shared.history.length = 9 ∧ Linearized OrderStore.step
      (rules sampleSetting.lib sampleSetting.cols) OrderStore.empty c.shared.history
      c.shared.table := by
  obtain ⟨order, status, created, shown, n₁, m₁, n₂, m₂, n₃, m₃, table, c, hc⟩ := sample_run
  exact ⟨c, hc.reach, by rw [hc.history]; rfl, (linearizable sample_libraries hc.reach).1⟩

end CdcPipeline.Proofs.ServedHistory
