import Mathlib.Data.List.Basic

namespace CdcPipeline.Library.History

/-- What is noted of a call: that it came in, that it took effect, that it was answered. -/
inductive Mark (T Q O R A : Type) where
  | called (t : T) (q : Q)
  | effect (t : T) (o : O) (r : R)
  | answered (t : T) (a : A)

/-- A sequential object: what an operation answers in a state, and the state it leaves. -/
abbrev Spec (O R σ : Type) := O → σ → R × σ

/-- What an effect may be for a request, and which answers may follow it or its absence. -/
structure Rules (Q O R A : Type) where
  means : Q → O → R → Prop
  failed : Q → A → Prop
  done : Q → O → R → A → Prop

variable {T Q O R A σ : Type}

def Mark.ticket : Mark T Q O R A → T
  | .called t _ | .effect t _ _ | .answered t _ => t

def Mark.operation : Mark T Q O R A → Option (O × R)
  | .effect _ o r => some (o, r)
  | _ => none

def effects (h : List (Mark T Q O R A)) : List (O × R) := h.filterMap Mark.operation

def Mark.request : Mark T Q O R A → Option Q
  | .called _ q => some q
  | _ => none

def requests (h : List (Mark T Q O R A)) : List Q := h.filterMap Mark.request

/-- The state behind some operations. -/
def replay (spec : Spec O R σ) (s : σ) (xs : List (O × R)) : σ :=
  xs.foldl (fun s x => (spec x.1 s).2) s

/-- One after another, the operations answer as the object does. -/
def Legal (spec : Spec O R σ) : σ → List (O × R) → Prop
  | _, [] => True
  | s, (o, r) :: xs => (spec o s).1 = r ∧ Legal spec (spec o s).2 xs

/-- The marks of one call, as far as it has come. -/
inductive Life (rules : Rules Q O R A) (t : T) : List (Mark T Q O R A) → Prop where
  | idle : Life rules t []
  | called (q : Q) : Life rules t [.called t q]
  | failed {q a} (failed : rules.failed q a) : Life rules t [.called t q, .answered t a]
  | acted {q o r} (means : rules.means q o r) : Life rules t [.called t q, .effect t o r]
  | done {q o r a} (means : rules.means q o r) (done : rules.done q o r a) :
      Life rules t [.called t q, .effect t o r, .answered t a]

section Legal

variable {spec : Spec O R σ}

@[simp] theorem replay_nil (s : σ) : replay spec s [] = s := rfl

theorem replay_append (s : σ) (xs ys : List (O × R)) :
    replay spec s (xs ++ ys) = replay spec (replay spec s xs) ys :=
  List.foldl_append

/-- What each of the operations keeps is kept. -/
theorem replay_keeps {P : σ → Prop} {xs : List (O × R)}
    (step : ∀ x ∈ xs, ∀ s, P s → P (spec x.1 s).2) {s : σ} (hs : P s) : P (replay spec s xs) := by
  induction xs generalizing s with
  | nil => exact hs
  | cons x xs ih =>
    exact ih (fun y hy => step y (List.mem_cons_of_mem x hy)) (step x List.mem_cons_self s hs)

theorem legal_append (s : σ) (xs ys : List (O × R)) :
    Legal spec s (xs ++ ys) ↔ Legal spec s xs ∧ Legal spec (replay spec s xs) ys := by
  induction xs generalizing s with
  | nil => simp [Legal]
  | cons x xs ih =>
    simp only [List.cons_append, Legal, ih, and_assoc]
    rfl

/-- An operation's answer is that of the state in front of it. -/
theorem Legal.answer {s : σ} {xs ys : List (O × R)} {o : O} {r : R}
    (h : Legal spec s (xs ++ (o, r) :: ys)) : (spec o (replay spec s xs)).1 = r :=
  ((legal_append s xs _).mp h).2.1

/-- What an operation sets and every operation keeps holds from then on. -/
theorem Legal.lasts {P : σ → Prop} {s : σ} {xs : List (O × R)} (h : Legal spec s xs)
    (step : ∀ x ∈ xs, ∀ s, P s → P (spec x.1 s).2) {o : O} {r : R} (hx : (o, r) ∈ xs)
    (sets : ∀ s, (spec o s).1 = r → P (spec o s).2) : P (replay spec s xs) := by
  obtain ⟨before, after, rfl⟩ := List.append_of_mem hx
  rw [replay_append]
  change P (replay spec (spec o (replay spec s before)).2 after)
  refine replay_keeps (fun y hy => step y ?_) (sets _ h.answer)
  exact List.mem_append_right _ (List.mem_cons_of_mem _ hy)

end Legal

theorem effects_append (h h' : List (Mark T Q O R A)) :
    effects (h ++ h') = effects h ++ effects h' :=
  List.filterMap_append

theorem requests_append (h h' : List (Mark T Q O R A)) :
    requests (h ++ h') = requests h ++ requests h' :=
  List.filterMap_append

theorem mem_requests {h : List (Mark T Q O R A)} {t : T} {q : Q} (hm : .called t q ∈ h) :
    q ∈ requests h :=
  List.mem_filterMap.mpr ⟨_, hm, rfl⟩

/-- Where no two requests share a name, no two calls share one. -/
theorem requests_ticket {α : Type} {f : Q → α} {h : List (Mark T Q O R A)}
    (hn : ((requests h).map f).Nodup) {t t' : T} {q q' : Q} (hq : .called t q ∈ h)
    (hq' : .called t' q' ∈ h) (hf : f q = f q') : t = t' := by
  induction h with
  | nil => contradiction
  | cons m h ih =>
    have later : ∀ {t : T} {q : Q}, .called t q ∈ h → f q ∈ (requests h).map f :=
      fun hq => List.mem_map_of_mem (mem_requests hq)
    cases m with
    | called t₀ q₀ =>
      obtain ⟨hfirst, hrest⟩ := List.nodup_cons.mp hn
      rcases List.mem_cons.mp hq with he | hm <;> rcases List.mem_cons.mp hq' with he' | hm'
      · exact (Mark.called.inj he).1.trans (Mark.called.inj he').1.symm
      · obtain ⟨-, rfl⟩ := Mark.called.inj he
        exact absurd (hf ▸ later hm') hfirst
      · obtain ⟨-, rfl⟩ := Mark.called.inj he'
        exact absurd (hf ▸ later hm) hfirst
      · exact ih hrest hm hm'
    | effect t₀ o r =>
      exact ih hn (List.mem_of_ne_of_mem (by simp) hq) (List.mem_of_ne_of_mem (by simp) hq')
    | answered t₀ a =>
      exact ih hn (List.mem_of_ne_of_mem (by simp) hq) (List.mem_of_ne_of_mem (by simp) hq')

theorem mem_effects {h : List (Mark T Q O R A)} {t : T} {o : O} {r : R}
    (hm : .effect t o r ∈ h) : (o, r) ∈ effects h :=
  List.mem_filterMap.mpr ⟨_, hm, rfl⟩

def Mark.rank : Mark T Q O R A → Nat
  | .called _ _ => 0
  | .effect _ _ _ => 1
  | .answered _ _ => 2

/-- The marks of a call come in this order, and each at most once. -/
theorem Life.ordered {rules : Rules Q O R A} {t : T} {h : List (Mark T Q O R A)}
    (hl : Life rules t h) :
    h.Pairwise (fun m m' => m.rank < m'.rank) := by
  cases hl <;> simp [Mark.rank]

section Tickets

variable [DecidableEq T]

def of (t : T) (h : List (Mark T Q O R A)) : List (Mark T Q O R A) :=
  h.filter (fun m => m.ticket = t)

@[simp] theorem of_nil (t : T) : of t ([] : List (Mark T Q O R A)) = [] := rfl

theorem of_append (t : T) (h h' : List (Mark T Q O R A)) : of t (h ++ h') = of t h ++ of t h' :=
  List.filter_append ..

theorem of_snoc_self {t : T} {m : Mark T Q O R A} (hm : m.ticket = t) (h : List (Mark T Q O R A)) :
    of t (h ++ [m]) = of t h ++ [m] := by
  simp [of, hm]

theorem of_snoc_ne {t : T} {m : Mark T Q O R A} (hm : m.ticket ≠ t) (h : List (Mark T Q O R A)) :
    of t (h ++ [m]) = of t h := by
  simp [of, hm]

theorem mem_of {t : T} {m : Mark T Q O R A} {h : List (Mark T Q O R A)} (hm : m ∈ h)
    (ht : m.ticket = t) : m ∈ of t h :=
  List.mem_filter.mpr ⟨hm, by simp [ht]⟩

theorem mem_of_mem_of {t : T} {m : Mark T Q O R A} {h : List (Mark T Q O R A)} (hm : m ∈ of t h) :
    m ∈ h :=
  (List.mem_filter.mp hm).1

variable {rules : Rules Q O R A}

/-- An answer is given for the request that was made, behind its effect if it had one. -/
theorem Life.answer {t : T} {h : List (Mark T Q O R A)} {a : A} (hl : Life rules t (of t h))
    (ha : .answered t a ∈ h) : ∃ q, .called t q ∈ h ∧ (rules.failed q a ∨
      ∃ o r, .effect t o r ∈ h ∧ rules.means q o r ∧ rules.done q o r a) := by
  have hmem : .answered t a ∈ of t h := mem_of ha rfl
  have back : ∀ m, m ∈ of t h → m ∈ h := fun _ => mem_of_mem_of
  generalize of t h = marks at hl hmem back
  cases hl with
  | idle => contradiction
  | called q => simp at hmem
  | acted _ => simp at hmem
  | failed hf =>
    simp only [List.mem_cons, reduceCtorEq, Mark.answered.injEq, true_and, List.not_mem_nil,
      or_false, false_or] at hmem
    subst hmem
    exact ⟨_, back _ (by simp), Or.inl hf⟩
  | done hm hd =>
    simp only [List.mem_cons, reduceCtorEq, Mark.answered.injEq, true_and, List.not_mem_nil,
      or_false, false_or] at hmem
    subst hmem
    exact ⟨_, back _ (by simp), Or.inr ⟨_, _, back _ (by simp), hm, hd⟩⟩

/-- An effect is that of a request. -/
theorem Life.effect {t : T} {h : List (Mark T Q O R A)} {o : O} {r : R}
    (hl : Life rules t (of t h)) (he : .effect t o r ∈ h) :
    ∃ q, .called t q ∈ h ∧ rules.means q o r := by
  have hmem : .effect t o r ∈ of t h := mem_of he rfl
  have back : ∀ m, m ∈ of t h → m ∈ h := fun _ => mem_of_mem_of
  generalize of t h = marks at hl hmem back
  cases hl with
  | idle => contradiction
  | called q => simp at hmem
  | failed _ => simp at hmem
  | acted hm =>
    obtain ⟨rfl, rfl⟩ : o = _ ∧ r = _ := by simpa using hmem
    exact ⟨_, back _ (by simp), hm⟩
  | done hm _ =>
    obtain ⟨rfl, rfl⟩ : o = _ ∧ r = _ := by simpa using hmem
    exact ⟨_, back _ (by simp), hm⟩

/-- A call has one request. -/
theorem Life.request {t : T} {h : List (Mark T Q O R A)} {q q' : Q} (hl : Life rules t (of t h))
    (hq : .called t q ∈ h) (hq' : .called t q' ∈ h) : q = q' := by
  have hmem : .called t q ∈ of t h := mem_of hq rfl
  have hmem' : .called t q' ∈ of t h := mem_of hq' rfl
  generalize of t h = marks at hl hmem hmem'
  cases hl with
  | idle => simp at hmem
  | _ => simp_all

theorem Life.apart {t : T} {h h' : List (Mark T Q O R A)} (hl : Life rules t (of t (h ++ h')))
    {m m' : Mark T Q O R A} (hm : m ∈ h) (ht : m.ticket = t) (hm' : m' ∈ h')
    (ht' : m'.ticket = t) : m.rank < m'.rank := by
  have hp := hl.ordered
  rw [of_append, List.pairwise_append] at hp
  exact hp.2.2 m (mem_of hm ht) m' (mem_of hm' ht')

/-- A call that has its effect in the second part of a history is not answered in the first. -/
theorem Life.unanswered {t : T} {h h' : List (Mark T Q O R A)} {o : O} {r : R}
    (hl : Life rules t (of t (h ++ h'))) (he : .effect t o r ∈ h') (a : A) :
    .answered t a ∉ h := by
  intro ha
  have hlt := hl.apart ha rfl he rfl
  exact absurd hlt (by simp [Mark.rank])

/-- What was answered in the first part of a history had its effect there. -/
theorem Life.effect_before {t : T} {h h' : List (Mark T Q O R A)} {o : O} {r : R} {a : A}
    (hl : Life rules t (of t (h ++ h'))) (ha : .answered t a ∈ h)
    (he : .effect t o r ∈ h ++ h') : .effect t o r ∈ h := by
  rcases List.mem_append.mp he with he | he
  · exact he
  · exact absurd ha (hl.unanswered he a)

/-- What was called in the second part of a history has its effect there. -/
theorem Life.effect_after {t : T} {h h' : List (Mark T Q O R A)} {q : Q} {o : O} {r : R}
    (hl : Life rules t (of t (h ++ h'))) (hq : .called t q ∈ h')
    (he : .effect t o r ∈ h ++ h') : .effect t o r ∈ h' := by
  rcases List.mem_append.mp he with he | he
  · have hlt := hl.apart he rfl hq rfl
    exact absurd hlt (by simp [Mark.rank])
  · exact he

/-- Every call had its effect, if any, at one point between its request and its answer,
and the effects in their order are those of the sequential object. -/
structure Linearized (spec : Spec O R σ) (rules : Rules Q O R A) (s₀ : σ)
    (h : List (Mark T Q O R A)) (s : σ) : Prop where
  legal : Legal spec s₀ (effects h)
  state : replay spec s₀ (effects h) = s
  lives : ∀ t, Life rules t (of t h)

variable {spec : Spec O R σ} {s₀ s : σ} {h : List (Mark T Q O R A)} {t : T}

theorem linearized_nil : Linearized spec rules s₀ ([] : List (Mark T Q O R A)) s₀ :=
  ⟨trivial, rfl, fun _ => .idle⟩

/-- A mark that continues its own call's life continues the history. -/
theorem Linearized.snoc (hl : Linearized spec rules s₀ h s) {m : Mark T Q O R A}
    (life : Life rules m.ticket (of m.ticket h ++ [m])) {s' : σ}
    (legal : ∀ o r, m.operation = some (o, r) → (spec o s).1 = r ∧ (spec o s).2 = s')
    (still : m.operation = none → s' = s) : Linearized spec rules s₀ (h ++ [m]) s' := by
  have lives : ∀ t, Life rules t (of t (h ++ [m])) := by
    intro t
    by_cases ht : m.ticket = t
    · subst ht
      rw [of_snoc_self rfl]
      exact life
    · rw [of_snoc_ne ht]
      exact hl.lives t
  cases ho : m.operation with
  | none =>
    have he : effects (h ++ [m]) = effects h := by simp [effects, ho]
    refine ⟨he ▸ hl.legal, ?_, lives⟩
    rw [he, hl.state, still ho]
  | some x =>
    obtain ⟨o, r⟩ := x
    obtain ⟨hr, hs⟩ := legal o r ho
    have he : effects (h ++ [m]) = effects h ++ [(o, r)] := by simp [effects, ho]
    refine ⟨?_, ?_, lives⟩
    · rw [he, legal_append, hl.state]
      exact ⟨hl.legal, hr, trivial⟩
    · rw [he, replay_append, hl.state]
      exact hs

theorem Linearized.call (hl : Linearized spec rules s₀ h s) (ht : of t h = []) (q : Q) :
    Linearized spec rules s₀ (h ++ [.called t q]) s := by
  refine hl.snoc ?_ (fun _ _ ho => by cases ho) (fun _ => rfl)
  rw [Mark.ticket, ht]
  exact .called q

theorem Linearized.act (hl : Linearized spec rules s₀ h s) {q : Q} {o : O}
    (ht : of t h = [.called t q]) (means : rules.means q o (spec o s).1) :
    Linearized spec rules s₀ (h ++ [.effect t o (spec o s).1]) (spec o s).2 := by
  refine hl.snoc ?_ ?_ (fun ho => by cases ho)
  · rw [Mark.ticket, ht]
    exact .acted means
  · intro o' r' ho
    obtain ⟨rfl, rfl⟩ := Prod.mk.inj (Option.some.inj ho)
    exact ⟨rfl, rfl⟩

theorem Linearized.fail (hl : Linearized spec rules s₀ h s) {q : Q} {a : A}
    (ht : of t h = [.called t q]) (failed : rules.failed q a) :
    Linearized spec rules s₀ (h ++ [.answered t a]) s := by
  refine hl.snoc ?_ (fun _ _ ho => by cases ho) (fun _ => rfl)
  rw [Mark.ticket, ht]
  exact .failed failed

theorem Linearized.finish (hl : Linearized spec rules s₀ h s) {q : Q} {o : O} {r : R} {a : A}
    (ht : of t h = [.called t q, .effect t o r]) (means : rules.means q o r)
    (done : rules.done q o r a) : Linearized spec rules s₀ (h ++ [.answered t a]) s := by
  refine hl.snoc ?_ (fun _ _ ho => by cases ho) (fun _ => rfl)
  rw [Mark.ticket, ht]
  exact .done means done

/-- Real time: an effect behind the first part of a history answers as the object does
once every effect of that part has happened. -/
theorem Linearized.answer_after {h' : List (Mark T Q O R A)}
    (hl : Linearized spec rules s₀ (h ++ h') s) {o : O} {r : R} (he : .effect t o r ∈ h') :
    ∃ xs, (∀ x ∈ xs, x ∈ effects h') ∧ Legal spec s₀ (effects h ++ xs) ∧
      (spec o (replay spec s₀ (effects h ++ xs))).1 = r := by
  obtain ⟨xs, ys, hx⟩ := List.append_of_mem (mem_effects he)
  have hlegal := hl.legal
  rw [effects_append, hx, ← List.append_assoc] at hlegal
  exact ⟨xs, fun x hmem => hx ▸ List.mem_append_left _ hmem, ((legal_append _ _ _).mp hlegal).1,
    hlegal.answer⟩

end Tickets

/-- Among the effects is one of a call's. -/
theorem effect_of {h : List (Mark T Q O R A)} {o : O} {r : R} (hx : (o, r) ∈ effects h) :
    ∃ t, .effect t o r ∈ h := by
  obtain ⟨m, hm, ho⟩ := List.mem_filterMap.mp hx
  cases m with
  | effect t o' r' =>
    obtain ⟨rfl, rfl⟩ := Prod.mk.inj (Option.some.inj ho)
    exact ⟨t, hm⟩
  | _ => cases ho

end CdcPipeline.Library.History
