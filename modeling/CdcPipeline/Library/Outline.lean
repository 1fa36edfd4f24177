import CdcPipeline.Library.Machine

namespace CdcPipeline.Library

/-- What a proof claims of a machine: an invariant of the shared state, how the
others may change it under a thread, and what holds when a thread is at a node. -/
structure Outline (ι N σ : Type) where
  inv : σ → Prop
  rely : ι → σ → σ → Prop
  node : ι → N → σ → Prop

namespace Outline

variable {ι Op ε N σ α β : Type} {Ans : Op → Type}

/-- Thread `i` may run the program from here: whatever the others do in between,
each of its calls keeps the invariant and what the others rely on. -/
def safe (O : Outline ι N σ) (M : Machine ι Op Ans ε N σ) (i : ι) :
    Prog Op Ans ε α → (α → σ → Prop) → (ε → σ → Prop) → σ → Prop
  | .ret a, Q, _, s => Q a s
  | .raise e, _, X, s => X e s
  | .ask op k, Q, X, s => ∀ s₁, O.rely i s s₁ → O.inv s₁ → ∀ a s₂, M.call i op s₁ a s₂ →
      O.inv s₂ ∧ (∀ j ≠ i, O.rely j s₁ s₂) ∧ O.safe M i (k a) Q X s₂

/-- No other thread and no environment step can falsify the assertion. -/
def Stable (O : Outline ι N σ) (i : ι) (P : σ → Prop) : Prop :=
  ∀ s s', O.rely i s s' → P s → P s'

/-- One call, as a triple. -/
def Call (O : Outline ι N σ) (M : Machine ι Op Ans ε N σ) (i : ι) (op : Op)
    (P : σ → Prop) (Q : Ans op → σ → Prop) : Prop :=
  ∀ s a s', O.inv s → P s → M.call i op s a s' →
    O.inv s' ∧ (∀ j ≠ i, O.rely j s s') ∧ Q a s'

section Rules

variable {O : Outline ι N σ} {M : Machine ι Op Ans ε N σ} {i : ι}
  {P : σ → Prop} {Q Q' : α → σ → Prop} {X X' : ε → σ → Prop} {s : σ}

/-- The call rule: a stable precondition reaches the call through the others' steps. -/
theorem safe_ask {o : Op} {k : Ans o → Prog Op Ans ε α} {R : Ans o → σ → Prop}
    (stable : O.Stable i P) (hc : O.Call M i o P R) (hP : P s)
    (hk : ∀ a t, R a t → O.safe M i (k a) Q X t) : O.safe M i (.ask o k) Q X s := by
  intro s₁ hr hi a s₂ he
  obtain ⟨hinv, hothers, hR⟩ := hc s₁ a s₂ hi (stable s s₁ hr hP) he
  exact ⟨hinv, hothers, hk a s₂ hR⟩

/-- A call that changes nothing only adds what its answer says of the state. -/
theorem safe_still {op : Op} {k : Ans op → Prog Op Ans ε α} (refl : ∀ j s, O.rely j s s)
    (still : ∀ s a s', M.call i op s a s' → s' = s) (stable : O.Stable i P) (hP : P s)
    (hk : ∀ a t t', O.inv t → P t → M.call i op t a t' → O.safe M i (k a) Q X t) :
    O.safe M i (.ask op k) Q X s := by
  intro s₁ hr hi a s₂ he
  obtain rfl := still s₁ a s₂ he
  exact ⟨hi, fun j _ => refl j s₂, hk a s₂ s₂ hi (stable s s₂ hr hP) he⟩

theorem safe_mono {p : Prog Op Ans ε α} (hQ : ∀ a t, Q a t → Q' a t)
    (hX : ∀ e t, X e t → X' e t) (h : O.safe M i p Q X s) : O.safe M i p Q' X' s := by
  induction p generalizing s with
  | ret a => exact hQ a s h
  | raise e => exact hX e s h
  | ask op k ih =>
    intro s₁ hr hi a s₂ he
    obtain ⟨hinv, hothers, hk⟩ := h s₁ hr hi a s₂ he
    exact ⟨hinv, hothers, ih a hk⟩

theorem safe_bind {p : Prog Op Ans ε α} {f : α → Prog Op Ans ε β} {R : β → σ → Prop}
    (h : O.safe M i p (fun a t => O.safe M i (f a) R X t) X s) :
    O.safe M i (p.bind f) R X s := by
  induction p generalizing s with
  | ret a => exact h
  | raise e => exact h
  | ask op k ih =>
    intro s₁ hr hi a s₂ he
    obtain ⟨hinv, hothers, hk⟩ := h s₁ hr hi a s₂ he
    exact ⟨hinv, hothers, ih a hk⟩

/-- Sequencing: the first part's result is all the second part is told. -/
theorem safe_seq {p : Prog Op Ans ε α} {f : α → Prog Op Ans ε β} {R : β → σ → Prop}
    (h : O.safe M i p Q X s) (hf : ∀ a t, Q a t → O.safe M i (f a) R X t) :
    O.safe M i (p.bind f) R X s :=
  safe_bind (safe_mono hf (fun _ _ hx => hx) h)

theorem safe_attempt {p : Prog Op Ans ε α} (h : O.safe M i p Q X s) :
    O.safe M i p.attempt (fun r t => match r with | .ok a => Q a t | .error e => X e t) X' s := by
  induction p generalizing s with
  | ret a => exact h
  | raise e => exact h
  | ask op k ih =>
    intro s₁ hr hi a s₂ he
    obtain ⟨hinv, hothers, hk⟩ := h s₁ hr hi a s₂ he
    exact ⟨hinv, hothers, ih a hk⟩

/-- A program keeps what each of its calls keeps, whatever it yields. -/
theorem safe_yields {A : Op → Prop} {R : α → Prop} {p : Prog Op Ans ε α} (stable : O.Stable i P)
    (hc : ∀ op, A op → O.Call M i op P (fun _ => P)) (hp : p.Asks A) (hr : p.Yields R)
    (hP : P s) : O.safe M i p (fun a t => R a ∧ P t) (fun _ => P) s := by
  induction p generalizing s with
  | ret a => exact ⟨hr, hP⟩
  | raise e => exact hP
  | ask op k ih =>
    apply safe_ask stable (hc op hp.1) hP
    exact fun a t ht => ih a (hp.2 a) (hr a) ht

theorem safe_asks {A : Op → Prop} {p : Prog Op Ans ε α} (stable : O.Stable i P)
    (hc : ∀ op, A op → O.Call M i op P (fun _ => P)) (hp : p.Asks A) (hP : P s) :
    O.safe M i p (fun _ => P) (fun _ => P) s :=
  safe_mono (fun _ _ h => h.2) (fun _ _ h => h) (safe_yields stable hc hp p.yields_true hP)

/-- A program that returns as long as its calls are answered so does not raise
where the machine answers them so. -/
theorem safe_returns {Op' : Type} {Ans' : Op' → Type} {f : Op' → Op}
    {g : ∀ op, Ans (f op) → Ans' op} {H : (op : Op') → Ans' op → Prop} {p : Prog Op' Ans' ε α}
    (stable : O.Stable i P) (hc : ∀ op, O.Call M i (f op) P (fun a t => H op (g op a) ∧ P t))
    (hp : p.Returns H) (hP : P s) :
    O.safe M i (p.embed f g) (fun _ => P) (fun _ _ => False) s := by
  induction p generalizing s with
  | ret a => exact hP
  | raise e => exact hp
  | ask op k ih =>
    apply safe_ask stable (hc op) hP
    exact fun a t ht => ih _ (hp _ ht.1) ht.2

/-- A program is as safe as the program it is embedded from. -/
theorem safe_embed {Op' : Type} {Ans' : Op' → Type} {f : Op' → Op}
    {g : ∀ op, Ans (f op) → Ans' op} {p : Prog Op' Ans' ε α}
    (h : O.safe (M.under f g) i p Q X s) : O.safe M i (p.embed f g) Q X s := by
  induction p generalizing s with
  | ret a => exact h
  | raise e => exact h
  | ask op k ih =>
    intro s₁ hr hi b s₂ he
    obtain ⟨hinv, hothers, hk⟩ := h s₁ hr hi (g op b) s₂ ⟨b, rfl, he⟩
    exact ⟨hinv, hothers, ih _ hk⟩

theorem Call.under {Op' : Type} {Ans' : Op' → Type} {f : Op' → Op}
    {g : ∀ op, Ans (f op) → Ans' op} {op : Op'} {R : Ans' op → σ → Prop}
    (h : O.Call M i (f op) P (fun b => R (g op b))) : O.Call (M.under f g) i op P R := by
  rintro s a s' hi hP ⟨b, rfl, he⟩
  exact h s b s' hi hP he

theorem safe_ofExcept {r : Except ε α} (hok : ∀ a, r = .ok a → Q a s)
    (herr : ∀ e, r = .error e → X e s) :
    O.safe M i (Prog.ofExcept r : Prog Op Ans ε α) Q X s := by
  cases r with
  | ok a => exact hok a rfl
  | error e => exact herr e rfl

/-- Others' steps in front of a program change nothing it can see. -/
theorem safe_rely {p : Prog Op Ans ε α} {s' : σ}
    (trans : ∀ s s₁ s₂, O.rely i s s₁ → O.rely i s₁ s₂ → O.rely i s s₂)
    (hQ : ∀ a, O.Stable i (Q a)) (hX : ∀ e, O.Stable i (X e))
    (hr : O.rely i s s') (h : O.safe M i p Q X s) : O.safe M i p Q X s' := by
  cases p with
  | ret a => exact hQ a s s' hr h
  | raise e => exact hX e s s' hr h
  | ask op k => exact fun s₁ hr₁ => h s₁ (trans s s' s₁ hr hr₁)

end Rules

/-- The outline fits the machine. -/
structure Valid (O : Outline ι N σ) (M : Machine ι Op Ans ε N σ) : Prop where
  refl : ∀ i s, O.rely i s s
  trans : ∀ i s s₁ s₂, O.rely i s s₁ → O.rely i s₁ s₂ → O.rely i s s₂
  stable : ∀ i n, O.Stable i (O.node i n)
  code : ∀ i n s, O.node i n s → O.safe M i (M.code i n) (O.node i) (fun _ _ => True) s
  env : ∀ s s', O.inv s → M.env s s' → O.inv s' ∧ ∀ i, O.rely i s s'
  crash : ∀ i s s', O.inv s → M.crash i s s' →
    O.inv s' ∧ (∀ j ≠ i, O.rely j s s') ∧ O.node i M.start s'

/-- What the outline says of a whole configuration. -/
def Holds (O : Outline ι N σ) (M : Machine ι Op Ans ε N σ)
    (c : Machine.Config ι Op Ans ε N σ) : Prop :=
  O.inv c.shared ∧ ∀ i, O.safe M i (c.threads i) (O.node i) (fun _ _ => True) c.shared

variable [DecidableEq ι]

/-- A step of thread `i` leaves every other thread where the outline has it. -/
theorem Valid.resume {O : Outline ι N σ} {M : Machine ι Op Ans ε N σ} (hv : O.Valid M)
    {c : Machine.Config ι Op Ans ε N σ} {i : ι} {p : Prog Op Ans ε N} {s : σ}
    (hs : ∀ j, O.safe M j (c.threads j) (O.node j) (fun _ _ => True) c.shared)
    (hinv : O.inv s) (hothers : ∀ j ≠ i, O.rely j c.shared s)
    (hp : O.safe M i p (O.node i) (fun _ _ => True) s) : O.Holds M (c.resume i p s) := by
  refine ⟨hinv, fun j => ?_⟩
  by_cases hj : j = i
  · subst hj
    rw [c.resume_self]
    exact hp
  · rw [c.resume_ne hj]
    exact safe_rely (hv.trans j) (hv.stable j) (fun _ _ _ _ h => h) (hothers j hj) (hs j)

theorem Valid.step {O : Outline ι N σ} {M : Machine ι Op Ans ε N σ} (hv : O.Valid M)
    {c c' : Machine.Config ι Op Ans ε N σ} (hc : O.Holds M c) (h : M.Step c c') :
    O.Holds M c' := by
  obtain ⟨hi, hs⟩ := hc
  cases h with
  | @call i op k a s at_ eff =>
    have hsafe := hs i
    rw [at_] at hsafe
    obtain ⟨hinv, hothers, hk⟩ := hsafe c.shared (hv.refl i c.shared) hi a s eff
    exact hv.resume hs hinv hothers hk
  | @jump i n at_ =>
    have hnode := hs i
    rw [at_] at hnode
    exact hv.resume hs hi (fun j _ => hv.refl j _) (hv.code i n _ hnode)
  | @env s eff =>
    obtain ⟨hinv, hr⟩ := hv.env c.shared s hi eff
    exact ⟨hinv, fun j => safe_rely (hv.trans j) (hv.stable j) (fun _ _ _ _ h => h) (hr j) (hs j)⟩
  | @crash i s eff =>
    obtain ⟨hinv, hothers, hnode⟩ := hv.crash i c.shared s hi eff
    exact hv.resume hs hinv hothers (hv.code i M.start s hnode)

/-- The outline holds in every reachable configuration. -/
theorem Valid.reach {O : Outline ι N σ} {M : Machine ι Op Ans ε N σ} (hv : O.Valid M)
    {s₀ : σ} (hinv : O.inv s₀) (hstart : ∀ i, O.node i M.start s₀)
    {c : Machine.Config ι Op Ans ε N σ} (h : M.Reach s₀ c) : O.Holds M c := by
  induction h with
  | init => exact ⟨hinv, fun i => hv.code i M.start s₀ (hstart i)⟩
  | step _ step ih => exact hv.step ih step

end Outline

end CdcPipeline.Library
