import Mathlib.Logic.Function.Basic

namespace CdcPipeline.Library

/-- A program that stops at every call it makes out of the process and goes on
with the answer. `raise` is an exception on its way to a handler. -/
inductive Prog (Op : Type) (Ans : Op → Type) (ε α : Type) : Type where
  | ret (a : α)
  | raise (e : ε)
  | ask (op : Op) (k : Ans op → Prog Op Ans ε α)

namespace Prog

variable {Op Op' : Type} {Ans : Op → Type} {Ans' : Op' → Type} {ε α β : Type}

def bind : Prog Op Ans ε α → (α → Prog Op Ans ε β) → Prog Op Ans ε β
  | .ret a, f => f a
  | .raise e, _ => .raise e
  | .ask op k, f => .ask op (fun a => (k a).bind f)

instance : Monad (Prog Op Ans ε) where
  pure := .ret
  bind := Prog.bind

/-- One call, answered by whoever runs the program. -/
def call (op : Op) : Prog Op Ans ε (Ans op) := .ask op .ret

/-- `try { p } catch (e)`: the exception becomes a value. -/
def attempt : Prog Op Ans ε α → Prog Op Ans ε (Except ε α)
  | .ret a => .ret (.ok a)
  | .raise e => .ret (.error e)
  | .ask op k => .ask op (fun a => (k a).attempt)

/-- Run a program written against a smaller set of calls. -/
def embed (f : Op → Op') (g : ∀ op, Ans' (f op) → Ans op) :
    Prog Op Ans ε α → Prog Op' Ans' ε α
  | .ret a => .ret a
  | .raise e => .raise e
  | .ask op k => .ask (f op) (fun a => (k (g op a)).embed f g)

/-- Whatever the answers are, every call of the program is one of these. -/
def Asks (P : Op → Prop) : Prog Op Ans ε α → Prop
  | .ret _ => True
  | .raise _ => True
  | .ask op k => P op ∧ ∀ a, (k a).Asks P

/-- As long as the answers are as `H` says, the program returns and does not throw. -/
def Returns (H : (op : Op) → Ans op → Prop) : Prog Op Ans ε α → Prop
  | .ret _ => True
  | .raise _ => False
  | .ask op k => ∀ a, H op a → (k a).Returns H

/-- Whatever the answers are, a result is one of these. -/
def Yields (P : α → Prop) : Prog Op Ans ε α → Prop
  | .ret a => P a
  | .raise _ => True
  | .ask _ k => ∀ a, (k a).Yields P

/-- Rethrow the failure of a pure computation. -/
def ofExcept : Except ε α → Prog Op Ans ε α
  | .ok a => .ret a
  | .error e => .raise e

@[simp] theorem pure_eq (a : α) : (pure a : Prog Op Ans ε α) = .ret a := rfl
@[simp] theorem bind_eq (p : Prog Op Ans ε α) (f : α → Prog Op Ans ε β) :
    p >>= f = p.bind f := rfl
@[simp] theorem ret_bind (a : α) (f : α → Prog Op Ans ε β) :
    (Prog.ret a : Prog Op Ans ε α).bind f = f a := rfl
@[simp] theorem raise_bind (e : ε) (f : α → Prog Op Ans ε β) :
    (Prog.raise e : Prog Op Ans ε α).bind f = .raise e := rfl
@[simp] theorem ask_bind (op : Op) (k : Ans op → Prog Op Ans ε α) (f : α → Prog Op Ans ε β) :
    (Prog.ask op k).bind f = .ask op (fun a => (k a).bind f) := rfl
@[simp] theorem call_bind (op : Op) (f : Ans op → Prog Op Ans ε β) :
    (call op : Prog Op Ans ε (Ans op)).bind f = .ask op f := rfl
theorem bind_bind {γ : Type} (p : Prog Op Ans ε α) (f : α → Prog Op Ans ε β)
    (g : β → Prog Op Ans ε γ) : (p.bind f).bind g = p.bind fun a => (f a).bind g := by
  induction p with
  | ret a => rfl
  | raise e => rfl
  | ask op k ih => exact congrArg (Prog.ask op) (funext ih)

@[simp] theorem ofExcept_ok (a : α) : (ofExcept (.ok a) : Prog Op Ans ε α) = .ret a := rfl
@[simp] theorem ofExcept_error (e : ε) :
    (ofExcept (.error e) : Prog Op Ans ε α) = .raise e := rfl

@[simp] theorem embed_ret (f : Op → Op') (g : ∀ op, Ans' (f op) → Ans op) (a : α) :
    (Prog.ret a : Prog Op Ans ε α).embed f g = .ret a := rfl
@[simp] theorem embed_raise (f : Op → Op') (g : ∀ op, Ans' (f op) → Ans op) (e : ε) :
    (Prog.raise e : Prog Op Ans ε α).embed f g = .raise e := rfl
@[simp] theorem embed_ask (f : Op → Op') (g : ∀ op, Ans' (f op) → Ans op) (op : Op)
    (k : Ans op → Prog Op Ans ε α) :
    (Prog.ask op k).embed f g = .ask (f op) (fun a => (k (g op a)).embed f g) := rfl

theorem embed_bind (f : Op → Op') (g : ∀ op, Ans' (f op) → Ans op) (p : Prog Op Ans ε α)
    (h : α → Prog Op Ans ε β) :
    (p.bind h).embed f g = (p.embed f g).bind (fun a => (h a).embed f g) := by
  induction p with
  | ret a => rfl
  | raise e => rfl
  | ask op k ih => exact congrArg (Prog.ask (f op)) (funext fun a => ih (g op a))

@[simp] theorem embed_ofExcept (f : Op → Op') (g : ∀ op, Ans' (f op) → Ans op) (r : Except ε α) :
    (ofExcept r : Prog Op Ans ε α).embed f g = ofExcept r := by
  cases r <;> rfl

theorem Asks.bind {P : Op → Prop} {p : Prog Op Ans ε α} {f : α → Prog Op Ans ε β}
    (hp : p.Asks P) (hf : ∀ a, (f a).Asks P) : (p.bind f).Asks P := by
  induction p with
  | ret a => exact hf a
  | raise e => trivial
  | ask op k ih => exact ⟨hp.1, fun a => ih a (hp.2 a)⟩

theorem Asks.attempt {P : Op → Prop} {p : Prog Op Ans ε α} (hp : p.Asks P) :
    p.attempt.Asks P := by
  induction p with
  | ret a => trivial
  | raise e => trivial
  | ask op k ih => exact ⟨hp.1, fun a => ih a (hp.2 a)⟩

theorem Asks.mono {P Q : Op → Prop} {p : Prog Op Ans ε α} (hp : p.Asks P)
    (h : ∀ op, P op → Q op) : p.Asks Q := by
  induction p with
  | ret a => trivial
  | raise e => trivial
  | ask op k ih => exact ⟨h op hp.1, fun a => ih a (hp.2 a)⟩

theorem asks_true (p : Prog Op Ans ε α) : p.Asks (fun _ => True) := by
  induction p with
  | ret a => trivial
  | raise e => trivial
  | ask op k ih => exact ⟨trivial, ih⟩

theorem asks_ofExcept (P : Op → Prop) (r : Except ε α) :
    (ofExcept r : Prog Op Ans ε α).Asks P := by
  cases r with
  | ok a => trivial
  | error e => trivial

theorem Asks.embed {P : Op → Prop} {P' : Op' → Prop} {f : Op → Op'}
    {g : ∀ op, Ans' (f op) → Ans op} {p : Prog Op Ans ε α} (hp : p.Asks P)
    (hf : ∀ op, P op → P' (f op)) : (p.embed f g).Asks P' := by
  induction p with
  | ret a => trivial
  | raise e => trivial
  | ask op k ih => exact ⟨hf op hp.1, fun a => ih (g op a) (hp.2 _)⟩

theorem Yields.bind {P : β → Prop} (p : Prog Op Ans ε α) {f : α → Prog Op Ans ε β}
    (hf : ∀ a, (f a).Yields P) : (p.bind f).Yields P := by
  induction p with
  | ret a => exact hf a
  | raise e => trivial
  | ask op k ih => exact ih

theorem Yields.seq {R : α → Prop} {P : β → Prop} {p : Prog Op Ans ε α} {f : α → Prog Op Ans ε β}
    (hp : p.Yields R) (hf : ∀ a, R a → (f a).Yields P) : (p.bind f).Yields P := by
  induction p with
  | ret a => exact hf a hp
  | raise e => trivial
  | ask op k ih => exact fun a => ih a (hp a)

theorem Yields.embed {P : α → Prop} {f : Op → Op'} {g : ∀ op, Ans' (f op) → Ans op}
    {p : Prog Op Ans ε α} (hp : p.Yields P) : (p.embed f g).Yields P := by
  induction p with
  | ret a => exact hp
  | raise e => trivial
  | ask op k ih => exact fun a => ih (g op a) (hp _)

theorem yields_true (p : Prog Op Ans ε α) : p.Yields (fun _ => True) := by
  induction p with
  | ret a => trivial
  | raise e => trivial
  | ask op k ih => exact ih

theorem Returns.bind {H : (op : Op) → Ans op → Prop} {p : Prog Op Ans ε α}
    {f : α → Prog Op Ans ε β} (hp : p.Returns H) (hf : ∀ a, (f a).Returns H) :
    (p.bind f).Returns H := by
  induction p with
  | ret a => exact hf a
  | raise e => exact absurd hp id
  | ask op k ih => exact fun a ha => ih a (hp a ha)

end Prog

section Run

variable {Op : Type} {Ans : Op → Type} {ε α β σ : Type}

/-- An environment that decides every answer from its own state. -/
abbrev Handler (Op : Type) (Ans : Op → Type) (σ : Type) := (op : Op) → σ → Ans op × σ

def Prog.run (h : Handler Op Ans σ) : Prog Op Ans ε α → σ → Except ε α × σ
  | .ret a, s => (.ok a, s)
  | .raise e, s => (.error e, s)
  | .ask op k, s => (k (h op s).1).run h (h op s).2

@[simp] theorem Prog.run_ret (h : Handler Op Ans σ) (a : α) (s : σ) :
    (Prog.ret a : Prog Op Ans ε α).run h s = (.ok a, s) := rfl
@[simp] theorem Prog.run_raise (h : Handler Op Ans σ) (e : ε) (s : σ) :
    (Prog.raise e : Prog Op Ans ε α).run h s = (.error e, s) := rfl
@[simp] theorem Prog.run_ask (h : Handler Op Ans σ) (op : Op) (k : Ans op → Prog Op Ans ε α)
    (s : σ) : (Prog.ask op k).run h s = (k (h op s).1).run h (h op s).2 := rfl

theorem Prog.run_bind (h : Handler Op Ans σ) (p : Prog Op Ans ε α) (f : α → Prog Op Ans ε β)
    (s : σ) : (p.bind f).run h s = match p.run h s with
      | (.ok a, t) => (f a).run h t
      | (.error e, t) => (.error e, t) := by
  induction p generalizing s with
  | ret a => rfl
  | raise e => rfl
  | ask op k ih => exact ih _ _

theorem Prog.run_attempt (h : Handler Op Ans σ) (p : Prog Op Ans ε α) (s : σ) :
    p.attempt.run h s = (.ok (p.run h s).1, (p.run h s).2) := by
  induction p generalizing s with
  | ret a => rfl
  | raise e => rfl
  | ask op k ih => exact ih _ _

/-- A program's result is decided by the answers to the calls it makes. -/
theorem Prog.run_congr {τ : Type} {h : Handler Op Ans σ} {g : Handler Op Ans τ}
    {p : Prog Op Ans ε α} (hp : p.Asks (fun op => ∀ s t, (h op s).1 = (g op t).1)) (s : σ) (t : τ) :
    (p.run h s).1 = (p.run g t).1 := by
  induction p generalizing s t with
  | ret a => rfl
  | raise e => rfl
  | ask op k ih =>
    rw [run_ask, run_ask, hp.1 s t]
    exact ih _ (hp.2 _) _ _

/-- What every call that may be made keeps is kept by the run. -/
theorem Prog.Asks.keeps {P : Op → Prop} {I : σ → Prop} {h : Handler Op Ans σ} {p : Prog Op Ans ε α}
    (hp : p.Asks P) (step : ∀ op s, P op → I s → I (h op s).2) {s : σ} (hs : I s) :
    I (p.run h s).2 := by
  induction p generalizing s with
  | ret a => exact hs
  | raise e => exact hs
  | ask op k ih => exact ih _ (hp.2 _) (step op s hp.1 hs)

/-- Two runs that every call answers alike and leaves related end alike and related. -/
theorem Prog.Asks.related {τ : Type} {P : Op → Prop} {R : σ → τ → Prop} {h : Handler Op Ans σ}
    {g : Handler Op Ans τ} {p : Prog Op Ans ε α} (hp : p.Asks P)
    (step : ∀ op s t, P op → R s t → (h op s).1 = (g op t).1 ∧ R (h op s).2 (g op t).2)
    {s : σ} {t : τ} (hr : R s t) :
    (p.run h s).1 = (p.run g t).1 ∧ R (p.run h s).2 (p.run g t).2 := by
  induction p generalizing s t with
  | ret a => exact ⟨rfl, hr⟩
  | raise e => exact ⟨rfl, hr⟩
  | ask op k ih =>
    obtain ⟨ha, hnext⟩ := step op s t hp.1 hr
    rw [run_ask, run_ask, ← ha]
    exact ih _ (hp.2 _) hnext

/-- A program without a call leaves everything as it is. -/
theorem Prog.run_silent {h : Handler Op Ans σ} {p : Prog Op Ans ε α} (hp : p.Asks fun _ => False)
    (s : σ) : (p.run h s).2 = s := by
  cases p with
  | ret a => rfl
  | raise e => rfl
  | ask op k => exact absurd hp.1 id

/-- Every exchange of the run, in the state it finds, is as `P` says. -/
def Prog.Along (h : Handler Op Ans σ) (P : (op : Op) → σ → Ans op → σ → Prop) :
    Prog Op Ans ε α → σ → Prop
  | .ret _, _ => True
  | .raise _, _ => True
  | .ask op k, s => P op s (h op s).1 (h op s).2 ∧ (k (h op s).1).Along h P (h op s).2

theorem Prog.along_of_forall {h : Handler Op Ans σ} {P : (op : Op) → σ → Ans op → σ → Prop}
    (hP : ∀ op s, P op s (h op s).1 (h op s).2) (p : Prog Op Ans ε α) (s : σ) : p.Along h P s := by
  induction p generalizing s with
  | ret a => trivial
  | raise e => trivial
  | ask op k ih => exact ⟨hP op s, ih _ _⟩

theorem Prog.along_and {h : Handler Op Ans σ} {P P' : (op : Op) → σ → Ans op → σ → Prop}
    {p : Prog Op Ans ε α} {s : σ} (hp : p.Along h P s) (hp' : p.Along h P' s) :
    p.Along h (fun op s a t => P op s a t ∧ P' op s a t) s := by
  induction p generalizing s with
  | ret a => trivial
  | raise e => trivial
  | ask op k ih => exact ⟨⟨hp.1, hp'.1⟩, ih _ hp.2 hp'.2⟩

/-- Every call of the run passes the test. -/
def Prog.passes (h : Handler Op Ans σ) (test : Op → Bool) : Prog Op Ans ε α → σ → Bool
  | .ret _, _ => true
  | .raise _, _ => true
  | .ask op k, s => test op && (k (h op s).1).passes h test (h op s).2

theorem Prog.along_of_passes {h : Handler Op Ans σ} {test : Op → Bool}
    {P : (op : Op) → σ → Ans op → σ → Prop}
    (hP : ∀ op, test op = true → ∀ s, P op s (h op s).1 (h op s).2) {p : Prog Op Ans ε α} {s : σ}
    (hp : p.passes h test s = true) : p.Along h P s := by
  induction p generalizing s with
  | ret a => trivial
  | raise e => trivial
  | ask op k ih =>
    obtain ⟨hop, hk⟩ := Bool.and_eq_true_iff.mp hp
    exact ⟨hP op hop s, ih _ hk⟩

/-- What every call that passes the test keeps, such a run keeps. -/
theorem Prog.run_keeps {h : Handler Op Ans σ} {test : Op → Bool} {I : σ → Prop}
    (hI : ∀ op, test op = true → ∀ s, I s → I (h op s).2) {p : Prog Op Ans ε α} {s : σ}
    (hp : p.passes h test s = true) (hs : I s) : I (p.run h s).2 := by
  induction p generalizing s with
  | ret a => exact hs
  | raise e => exact hs
  | ask op k ih =>
    obtain ⟨hop, hk⟩ := Bool.and_eq_true_iff.mp hp
    exact ih _ hk (hI op hop s hs)

theorem Prog.Returns.run {H : (op : Op) → Ans op → Prop} {h : Handler Op Ans σ}
    (hH : ∀ op s, H op (h op s).1) {p : Prog Op Ans ε α} (hp : p.Returns H) (s : σ) :
    ∃ a, (p.run h s).1 = .ok a := by
  induction p generalizing s with
  | ret a => exact ⟨a, rfl⟩
  | raise e => exact absurd hp id
  | ask op k ih => exact ih _ (hp _ (hH op s)) _

/-- A call with the answer it got. -/
structure Prog.Exchange (Op : Type) (Ans : Op → Type) where
  op : Op
  answer : Ans op

/-- What the run exchanges with its environment, in order. -/
def Prog.trace (h : Handler Op Ans σ) : Prog Op Ans ε α → σ → List (Prog.Exchange Op Ans)
  | .ret _, _ => []
  | .raise _, _ => []
  | .ask op k, s => ⟨op, (h op s).1⟩ :: (k (h op s).1).trace h (h op s).2

@[simp] theorem Prog.trace_ask (h : Handler Op Ans σ) (op : Op) (k : Ans op → Prog Op Ans ε α)
    (s : σ) : (Prog.ask op k).trace h s = ⟨op, (h op s).1⟩ :: (k (h op s).1).trace h (h op s).2 :=
  rfl

/-- A sequence ends with its first part's exception, or goes on where that has returned. -/
theorem Prog.trace_bind (h : Handler Op Ans σ) (p : Prog Op Ans ε α) (f : α → Prog Op Ans ε β)
    (s : σ) : (∃ e t, p.run h s = (.error e, t) ∧ (p.bind f).trace h s = p.trace h s) ∨
      ∃ a t, p.run h s = (.ok a, t) ∧ (p.bind f).trace h s = p.trace h s ++ (f a).trace h t := by
  induction p generalizing s with
  | ret a => exact .inr ⟨a, s, rfl, rfl⟩
  | raise e => exact .inl ⟨e, s, rfl, rfl⟩
  | ask op k ih =>
    rcases ih (h op s).1 (h op s).2 with ⟨e, t, hr, ho⟩ | ⟨a, t, hr, ho⟩
    · exact .inl ⟨e, t, hr, congrArg (_ :: ·) ho⟩
    · exact .inr ⟨a, t, hr, congrArg (_ :: ·) ho⟩

theorem Prog.trace_attempt (h : Handler Op Ans σ) (p : Prog Op Ans ε α) (s : σ) :
    p.attempt.trace h s = p.trace h s := by
  induction p generalizing s with
  | ret a => rfl
  | raise e => rfl
  | ask op k ih => exact congrArg (_ :: ·) (ih _ _)

theorem Prog.Asks.trace {P : Op → Prop} {p : Prog Op Ans ε α} (hp : p.Asks P)
    (h : Handler Op Ans σ) (s : σ) : ∀ c ∈ p.trace h s, P c.op := by
  induction p generalizing s with
  | ret a => nofun
  | raise e => nofun
  | ask op k ih =>
    intro c hc
    rcases List.mem_cons.mp hc with rfl | hc
    · exact hp.1
    · exact ih _ (hp.2 _) _ c hc

/-- The calls of the run, without their answers. -/
def Prog.ops (h : Handler Op Ans σ) (p : Prog Op Ans ε α) (s : σ) : List Op :=
  (p.trace h s).map Prog.Exchange.op

@[simp] theorem Prog.ops_ret (h : Handler Op Ans σ) (a : α) (s : σ) :
    (Prog.ret a : Prog Op Ans ε α).ops h s = [] := rfl
@[simp] theorem Prog.ops_raise (h : Handler Op Ans σ) (e : ε) (s : σ) :
    (Prog.raise e : Prog Op Ans ε α).ops h s = [] := rfl
@[simp] theorem Prog.ops_ask (h : Handler Op Ans σ) (op : Op) (k : Ans op → Prog Op Ans ε α)
    (s : σ) : (Prog.ask op k).ops h s = op :: (k (h op s).1).ops h (h op s).2 := rfl

theorem Prog.Asks.ops {P : Op → Prop} {p : Prog Op Ans ε α} (hp : p.Asks P)
    (h : Handler Op Ans σ) (s : σ) : ∀ op ∈ p.ops h s, P op :=
  List.forall_mem_map.mpr (hp.trace h s)

theorem Prog.ops_bind (h : Handler Op Ans σ) (p : Prog Op Ans ε α) (f : α → Prog Op Ans ε β)
    (s : σ) : (∃ e t, p.run h s = (.error e, t) ∧ (p.bind f).ops h s = p.ops h s) ∨
      ∃ a t, p.run h s = (.ok a, t) ∧ (p.bind f).ops h s = p.ops h s ++ (f a).ops h t := by
  rcases Prog.trace_bind h p f s with ⟨e, t, hr, ho⟩ | ⟨a, t, hr, ho⟩
  · exact .inl ⟨e, t, hr, congrArg (List.map Prog.Exchange.op) ho⟩
  · refine .inr ⟨a, t, hr, ?_⟩
    rw [Prog.ops, ho, List.map_append]
    rfl

end Run

end CdcPipeline.Library
