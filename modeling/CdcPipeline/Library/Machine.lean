import CdcPipeline.Library.Program

namespace CdcPipeline.Library

/-- Threads that run a graph of programs over one shared state. A thread whose
program returns a node goes on with that node's code; one that raises is dead
until it crashes and starts again. -/
structure Machine (ι Op : Type) (Ans : Op → Type) (ε N σ : Type) where
  code : ι → N → Prog Op Ans ε N
  start : N
  call : ι → (op : Op) → σ → Ans op → σ → Prop
  env : σ → σ → Prop
  crash : ι → σ → σ → Prop

variable {ι Op ε N σ : Type} {Ans : Op → Type} [DecidableEq ι]

namespace Machine

structure Config (ι Op : Type) (Ans : Op → Type) (ε N σ : Type) where
  threads : ι → Prog Op Ans ε N
  shared : σ

def Config.resume (c : Config ι Op Ans ε N σ) (i : ι) (p : Prog Op Ans ε N) (s : σ) :
    Config ι Op Ans ε N σ :=
  ⟨Function.update c.threads i p, s⟩

/-- One step of one thread, or of the environment. -/
inductive Step (M : Machine ι Op Ans ε N σ) :
    Config ι Op Ans ε N σ → Config ι Op Ans ε N σ → Prop where
  | call {c i o k a s} (at_ : c.threads i = .ask o k) (eff : M.call i o c.shared a s) :
      Step M c (c.resume i (k a) s)
  | jump {c i n} (at_ : c.threads i = .ret n) : Step M c (c.resume i (M.code i n) c.shared)
  | env {c s} (eff : M.env c.shared s) : Step M c ⟨c.threads, s⟩
  | crash {c i s} (eff : M.crash i c.shared s) :
      Step M c (c.resume i (M.code i M.start) s)

def init (M : Machine ι Op Ans ε N σ) (s₀ : σ) : Config ι Op Ans ε N σ :=
  ⟨fun i => M.code i M.start, s₀⟩

inductive Reach (M : Machine ι Op Ans ε N σ) (s₀ : σ) : Config ι Op Ans ε N σ → Prop where
  | init : Reach M s₀ (M.init s₀)
  | step {c c'} (before : Reach M s₀ c) (step : Step M c c') : Reach M s₀ c'

/-- What a run may be asked to avoid: answers, environment steps and crashes. -/
structure Condition (ι Op : Type) (Ans : Op → Type) (σ : Type) where
  call : ι → (op : Op) → σ → Ans op → σ → Prop
  env : σ → σ → Prop
  crash : ι → σ → Prop

/-- The runs of `M` all of whose steps meet the condition. -/
def restrict (M : Machine ι Op Ans ε N σ) (C : Condition ι Op Ans σ) :
    Machine ι Op Ans ε N σ :=
  { M with
    call := fun i op s a s' => M.call i op s a s' ∧ C.call i op s a s'
    env := fun s s' => M.env s s' ∧ C.env s s'
    crash := fun i s s' => M.crash i s s' ∧ C.crash i s }

/-- `M` as a program meets it that was written against a smaller set of calls. -/
def under (M : Machine ι Op Ans ε N σ) {Op' : Type} {Ans' : Op' → Type} (f : Op' → Op)
    (g : ∀ op, Ans (f op) → Ans' op) : Machine ι Op' Ans' ε N σ where
  code _ := .ret
  start := M.start
  call i op s a s' := ∃ b, g op b = a ∧ M.call i (f op) s b s'
  env := M.env
  crash := M.crash

theorem Step.of_restrict {M : Machine ι Op Ans ε N σ} {C : Condition ι Op Ans σ}
    {c c' : Config ι Op Ans ε N σ} (h : Step (M.restrict C) c c') : Step M c c' := by
  cases h with
  | call at_ eff => exact .call at_ eff.1
  | jump at_ => exact .jump at_
  | env eff => exact .env eff.1
  | crash eff => exact .crash eff.1

/-- Avoiding steps adds no run. -/
theorem Reach.of_restrict {M : Machine ι Op Ans ε N σ} {C : Condition ι Op Ans σ} {s₀ : σ}
    {c : Config ι Op Ans ε N σ} (h : Reach (M.restrict C) s₀ c) : Reach M s₀ c := by
  induction h with
  | init => exact .init
  | step _ step ih => exact .step ih step.of_restrict

theorem Config.resume_self (c : Config ι Op Ans ε N σ) (i : ι) (p : Prog Op Ans ε N) (s : σ) :
    (c.resume i p s).threads i = p := by
  simp [Config.resume]

theorem Config.resume_ne (c : Config ι Op Ans ε N σ) {i j : ι} (hj : j ≠ i)
    (p : Prog Op Ans ε N) (s : σ) : (c.resume i p s).threads j = c.threads j := by
  simp [Config.resume, hj]

theorem Config.resume_resume (c : Config ι Op Ans ε N σ) (i : ι) (p q : Prog Op Ans ε N)
    (s t : σ) : (c.resume i p s).resume i q t = c.resume i q t := by
  simp [Config.resume]

/-- A thread may run the rest of its program against a handler whose answers
the machine allows, while the others stand still. -/
theorem Reach.resume {M : Machine ι Op Ans ε N σ} {s₀ : σ} {i : ι} (h : Handler Op Ans σ)
    {p : Prog Op Ans ε N} {c : Config ι Op Ans ε N σ} (hc : Reach M s₀ c)
    (hp : c.threads i = p) (along : p.Along h (M.call i) c.shared) {n : N} {s' : σ}
    (hr : p.run h c.shared = (.ok n, s')) : Reach M s₀ (c.resume i (.ret n) s') := by
  induction p generalizing c with
  | ret a =>
    simp only [Prog.run_ret, Prod.mk.injEq, Except.ok.injEq] at hr
    obtain ⟨rfl, rfl⟩ := hr
    have hsame : c.resume i (.ret a) c.shared = c := by
      rw [Config.resume, ← hp, Function.update_eq_self]
    rw [hsame]
    exact hc
  | raise e => simp at hr
  | ask op k ih =>
    have hs := Reach.step hc (.call hp along.1)
    have hrest := ih _ hs (c.resume_self i _ _) along.2 hr
    rw [Config.resume_resume] at hrest
    exact hrest

/-- Running one node to the next, and starting that one. -/
theorem Reach.node {M : Machine ι Op Ans ε N σ} {s₀ : σ} {i : ι} (h : Handler Op Ans σ)
    {c : Config ι Op Ans ε N σ} (hc : Reach M s₀ c) {n m : N} (hn : c.threads i = M.code i n)
    (along : (M.code i n).Along h (M.call i) c.shared) {s' : σ}
    (hr : (M.code i n).run h c.shared = (.ok m, s')) :
    Reach M s₀ (c.resume i (M.code i m) s') := by
  have hret := Reach.step (Reach.resume h hc hn along hr) (.jump (c.resume_self i _ _))
  rw [Config.resume_resume] at hret
  exact hret

/-- The same, of one thread alone. -/
theorem Reach.run_node {M : Machine ι Op Ans ε N σ} {s₀ : σ} {i : ι} (h : Handler Op Ans σ)
    {n m : N} {s s' : σ}
    (hc : ∃ c, Reach M s₀ c ∧ c.threads i = M.code i n ∧ c.shared = s)
    (along : (M.code i n).Along h (M.call i) s)
    (hr : (M.code i n).run h s = (.ok m, s')) :
    ∃ c, Reach M s₀ c ∧ c.threads i = M.code i m ∧ c.shared = s' := by
  obtain ⟨c, hc, hn, rfl⟩ := hc
  exact ⟨_, hc.node h hn along hr, c.resume_self i _ _, rfl⟩

/-- While the other threads stand still, the program may come from one state to the other, where
the second program is what is left of it. -/
inductive Leads (M : Machine ι Op Ans ε N σ) (i : ι) {α : Type} :
    Prog Op Ans ε α → σ → Prog Op Ans ε α → σ → Prop where
  | refl {p s} : Leads M i p s p s
  | ask {op k s b t q s'} (call : M.call i op s b t) (rest : Leads M i (k b) t q s') :
      Leads M i (.ask op k) s q s'

/-- The program may run undisturbed to its end. -/
def Runs (M : Machine ι Op Ans ε N σ) (i : ι) {α : Type} (p : Prog Op Ans ε α) (s : σ)
    (r : Except ε α) (s' : σ) : Prop :=
  M.Leads i p s (Prog.ofExcept r) s'

section Leads

omit [DecidableEq ι]

variable {M : Machine ι Op Ans ε N σ} {i : ι} {α β : Type} {p q : Prog Op Ans ε α} {s t s' : σ}

theorem Leads.trans {p' : Prog Op Ans ε α} (h : M.Leads i p s q t) (h' : M.Leads i q t p' s') :
    M.Leads i p s p' s' := by
  induction h with
  | refl => exact h'
  | ask call _ ih => exact .ask call (ih h')

theorem Leads.bind (f : α → Prog Op Ans ε β) (h : M.Leads i p s q t) :
    M.Leads i (p.bind f) s (q.bind f) t := by
  induction h with
  | refl => exact .refl
  | ask call _ ih => exact .ask call ih

theorem Leads.attempt (h : M.Leads i p s q t) : M.Leads i p.attempt s q.attempt t := by
  induction h with
  | refl => exact .refl
  | ask call _ ih => exact .ask call ih

theorem Leads.embed {Op' : Type} {Ans' : Op' → Type} {f : Op' → Op}
    {g : ∀ op, Ans (f op) → Ans' op} {p q : Prog Op' Ans' ε α}
    (h : (M.under f g).Leads i p s q t) : M.Leads i (p.embed f g) s (q.embed f g) t := by
  induction h with
  | refl => exact .refl
  | ask call _ ih =>
    obtain ⟨b, rfl, call⟩ := call
    exact .ask call ih

theorem Runs.ret {a : α} : M.Runs i (.ret a) s (.ok a) s := .refl

theorem Runs.raise {e : ε} : M.Runs i (.raise e : Prog Op Ans ε α) s (.error e) s := .refl

theorem Runs.ask {op : Op} {k : Ans op → Prog Op Ans ε α} {b : Ans op} {r : Except ε α}
    (call : M.call i op s b t) (rest : M.Runs i (k b) t r s') : M.Runs i (.ask op k) s r s' :=
  Leads.ask call rest

theorem Runs.bind {f : α → Prog Op Ans ε β} {a : α} {r : Except ε β} (hp : M.Runs i p s (.ok a) t)
    (hf : M.Runs i (f a) t r s') : M.Runs i (p.bind f) s r s' :=
  (Leads.bind f hp).trans hf

theorem Runs.attempt {r : Except ε α} (hp : M.Runs i p s r t) :
    M.Runs i p.attempt s (.ok r) t := by
  have h := Leads.attempt hp
  cases r with
  | ok a => exact h
  | error e => exact h

theorem Runs.embed {Op' : Type} {Ans' : Op' → Type} {f : Op' → Op}
    {g : ∀ op, Ans (f op) → Ans' op} {p : Prog Op' Ans' ε α} {r : Except ε α}
    (hp : (M.under f g).Runs i p s r t) : M.Runs i (p.embed f g) s r t := by
  have h := Leads.embed hp
  rwa [Prog.embed_ofExcept] at h

end Leads

theorem Reach.leads {M : Machine ι Op Ans ε N σ} {s₀ : σ} {i : ι} {p q : Prog Op Ans ε N}
    {c : Config ι Op Ans ε N σ} (hc : Reach M s₀ c) (hp : c.threads i = p) {s' : σ}
    (h : M.Leads i p c.shared q s') : Reach M s₀ (c.resume i q s') := by
  generalize hs : c.shared = s at h
  induction h generalizing c with
  | refl =>
    rw [Config.resume, ← hp, ← hs, Function.update_eq_self]
    exact hc
  | ask call _ ih =>
    subst hs
    have hnext := ih (.step hc (.call hp call)) (c.resume_self i _ _) rfl
    rwa [Config.resume_resume] at hnext

/-- What may run undisturbed is a run. -/
theorem Reach.runs {M : Machine ι Op Ans ε N σ} {s₀ : σ} {i : ι} {p : Prog Op Ans ε N}
    {c : Config ι Op Ans ε N σ} (hc : Reach M s₀ c) (hp : c.threads i = p) {n : N} {s' : σ}
    (hr : M.Runs i p c.shared (.ok n) s') : Reach M s₀ (c.resume i (M.code i n) s') := by
  have hnext := Reach.step (hc.leads hp hr) (.jump (c.resume_self i _ _))
  rwa [Config.resume_resume] at hnext

end Machine

end CdcPipeline.Library
