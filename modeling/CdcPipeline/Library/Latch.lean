import Mathlib.Data.List.Induction
import Mathlib.Data.List.Pairwise
import Mathlib.Logic.Function.Basic

namespace CdcPipeline.Library.Latch

inductive Slot (V : Type) where
  | empty
  | mark
  | value (v : V)

variable {K V : Type} [DecidableEq K] (next : K → K)

/-- A write is taken unless the cell next to its key is marked, and marks it. -/
def write (s : K → Slot V) (x : K × V) : K → Slot V :=
  match s (next x.1) with
  | .mark => s
  | _ => Function.update (Function.update s x.1 (.value x.2)) (next x.1) .mark

def run (log : List (K × V)) : K → Slot V := log.foldl (write next) (fun _ => .empty)

def first (k : K) (log : List (K × V)) : Option V :=
  (log.find? (fun x => decide (x.1 = k))).map Prod.snd

def last (k : K) (log : List (K × V)) : Option V := first k log.reverse

/-- The key is not written once the next key has been. -/
def Precedes (k : K) (log : List (K × V)) : Prop :=
  log.Pairwise (fun a b => ¬ (a.1 = next k ∧ b.1 = k))

def Apart (log : List (K × V)) : Prop := ∀ k, Precedes next k log

section

variable {next}

theorem write_marked {s : K → Slot V} {x : K × V} (h : s (next x.1) = .mark) :
    write next s x = s := by
  rw [write, h]

theorem write_free {s : K → Slot V} {x : K × V} (h : s (next x.1) ≠ .mark) :
    write next s x = Function.update (Function.update s x.1 (.value x.2)) (next x.1) .mark := by
  unfold write
  split
  · exact absurd ‹_› h
  · rfl

theorem write_next (s : K → Slot V) (x : K × V) : write next s x (next x.1) = .mark := by
  by_cases h : s (next x.1) = .mark
  · rw [write_marked h]
    exact h
  · rw [write_free h, Function.update_self]

theorem run_snoc (log : List (K × V)) (x : K × V) :
    run next (log ++ [x]) = write next (run next log) x := by
  rw [run, List.foldl_append]
  rfl

theorem first_snoc (k : K) (log : List (K × V)) (x : K × V) :
    first k (log ++ [x]) = (first k log).or (if x.1 = k then some x.2 else none) := by
  by_cases h : x.1 = k <;> simp [first, List.find?_append, h]

theorem first_eq_none {k : K} {log : List (K × V)} : first k log = none ↔ ∀ x ∈ log, x.1 ≠ k := by
  simp [first]

theorem mem_of_first {k : K} {v : V} {log : List (K × V)} (h : first k log = some v) :
    ∃ x ∈ log, x.1 = k := by
  by_contra hnone
  push Not at hnone
  rw [first_eq_none.mpr hnone] at h
  contradiction

theorem last_of_mem {k : K} {log : List (K × V)} (h : ∃ x ∈ log, x.1 = k) :
    ∃ v, last k log = some v := by
  obtain ⟨x, hx, hk⟩ := h
  rcases hl : last k log with _ | v
  · exact absurd hk (first_eq_none.mp hl x (List.mem_reverse.mpr hx))
  · exact ⟨v, rfl⟩

omit [DecidableEq K] in
theorem precedes_snoc {k : K} {log : List (K × V)} {x : K × V} :
    Precedes next k (log ++ [x]) ↔
      Precedes next k log ∧ (x.1 = k → ∀ a ∈ log, a.1 ≠ next k) := by
  unfold Precedes
  rw [List.pairwise_append]
  simp only [List.pairwise_singleton, List.mem_singleton, forall_eq, true_and, not_and]
  refine and_congr_right fun _ => ⟨?_, ?_⟩
  · exact fun h hx a ha hn => h a ha hn hx
  · exact fun h a ha hn hx => h hx a ha hn

variable (inj : Function.Injective next)

include inj

theorem mem_of_mark {k : K} {log : List (K × V)} (h : run next log (next k) = .mark) :
    ∃ x ∈ log, x.1 = k := by
  induction log using List.reverseRecOn with
  | nil => contradiction
  | append_singleton log x ih =>
    rw [run_snoc] at h
    have old : run next log (next k) = .mark → ∃ y ∈ log ++ [x], y.1 = k := by
      intro hold
      obtain ⟨y, hy, hk⟩ := ih hold
      exact ⟨y, List.mem_append_left _ hy, hk⟩
    by_cases hx : run next log (next x.1) = .mark
    · rw [write_marked hx] at h
      exact old h
    · rw [write_free hx] at h
      by_cases hk : k = x.1
      · exact ⟨x, by simp, hk.symm⟩
      · rw [Function.update_of_ne (fun he => hk (inj he))] at h
        by_cases hn : next k = x.1
        · rw [hn, Function.update_self] at h
          contradiction
        · rw [Function.update_of_ne hn] at h
          exact old h

theorem mark_of_mem {k : K} {log : List (K × V)} (h : ∃ x ∈ log, x.1 = k)
    (hnext : ∀ x ∈ log, x.1 ≠ next k) : run next log (next k) = .mark := by
  induction log using List.reverseRecOn with
  | nil =>
    obtain ⟨x, hx, -⟩ := h
    contradiction
  | append_singleton log x ih =>
    rw [run_snoc]
    have old : (∃ y ∈ log, y.1 = k) → run next log (next k) = .mark :=
      fun h => ih h fun y hy => hnext y (List.mem_append_left _ hy)
    have hx := hnext x (by simp)
    by_cases hm : run next log (next x.1) = .mark
    · rw [write_marked hm]
      by_cases hk : x.1 = k
      · rw [← hk]
        exact hm
      · obtain ⟨y, hy, hyk⟩ := h
        rcases List.mem_append.mp hy with hy | hy
        · exact old ⟨y, hy, hyk⟩
        · exact absurd (List.mem_singleton.mp hy ▸ hyk) hk
    · rw [write_free hm]
      by_cases hk : x.1 = k
      · rw [hk, Function.update_self]
      · rw [Function.update_of_ne (fun he => hk (inj he).symm), Function.update_of_ne (Ne.symm hx)]
        obtain ⟨y, hy, hyk⟩ := h
        rcases List.mem_append.mp hy with hy | hy
        · exact old ⟨y, hy, hyk⟩
        · exact absurd (List.mem_singleton.mp hy ▸ hyk) hk

omit [DecidableEq K] inj in
theorem bounded (rank : K → Nat) (log : List (K × V)) : ∃ bound, ∀ x ∈ log, rank x.1 < bound := by
  induction log with
  | nil => exact ⟨0, fun x hx => absurd hx List.not_mem_nil⟩
  | cons y log ih =>
    obtain ⟨bound, hb⟩ := ih
    refine ⟨max bound (rank y.1 + 1), fun x hx => ?_⟩
    rcases List.mem_cons.mp hx with rfl | hx
    · exact Nat.lt_of_lt_of_le (Nat.lt_succ_self _) (Nat.le_max_right _ _)
    · exact Nat.lt_of_lt_of_le (hb x hx) (Nat.le_max_left _ _)

/-- Where no key is written after its next one, each cell keeps its first value. -/
theorem run_first (ne : ∀ k, next k ≠ k) {log : List (K × V)} (h : Apart next log) {k : K} {v : V}
    (hf : first k log = some v) : run next log k = .value v := by
  induction log using List.reverseRecOn with
  | nil => contradiction
  | append_singleton log x ih =>
    have hx : ∀ a ∈ log, a.1 ≠ next x.1 := (precedes_snoc.mp (h x.1)).2 rfl
    have hlog : Apart next log := fun k => (precedes_snoc.mp (h k)).1
    rw [run_snoc]
    rw [first_snoc] at hf
    rcases hold : first k log with _ | u
    · by_cases hk : x.1 = k
      · have hv : some x.2 = some v := by simpa [hold, hk] using hf
        obtain rfl := Option.some.inj hv
        subst hk
        have hfree : run next log (next x.1) ≠ .mark := by
          intro hm
          obtain ⟨y, hy, hyk⟩ := mem_of_mark inj hm
          exact first_eq_none.mp hold y hy hyk
        rw [write_free hfree, Function.update_of_ne (ne x.1).symm, Function.update_self]
      · simp [hold, hk] at hf
    · have hu : u = v := by simpa [hold] using hf
      subst hu
      have hval := ih hlog hold
      by_cases hm : run next log (next x.1) = .mark
      · rw [write_marked hm]
        exact hval
      · have hmem := mem_of_first hold
        have hk : k ≠ x.1 := by
          rintro rfl
          exact hm (mark_of_mem inj hmem hx)
        have hn : k ≠ next x.1 := by
          rintro rfl
          obtain ⟨y, hy, hyk⟩ := hmem
          exact hx y hy hyk
        rw [write_free hm, Function.update_of_ne hn, Function.update_of_ne hk]
        exact hval

/-- A key that is written after its next one has spoiled that one's cell for good. -/
theorem spoiled {k : K} {log : List (K × V)} (h : Precedes next (next k) log)
    (hk : ¬ Precedes next k log) : run next log (next k) = .mark := by
  induction log using List.reverseRecOn with
  | nil => exact absurd .nil hk
  | append_singleton log x ih =>
    obtain ⟨hlog, hx⟩ := precedes_snoc.mp h
    rw [run_snoc]
    by_cases hxk : x.1 = k
    · subst hxk
      exact write_next _ x
    · have hold : ¬ Precedes next k log :=
        fun h => hk (precedes_snoc.mpr ⟨h, fun h => absurd h hxk⟩)
      by_cases hm : run next log (next x.1) = .mark
      · rw [write_marked hm]
        exact ih hlog hold
      · by_cases hn : x.1 = next k
        -- its cell was marked by an earlier write, which the one after it has not undone
        · have hmem : ∃ y ∈ log, y.1 = x.1 := by
            by_contra hnone
            push Not at hnone
            refine hold (List.pairwise_of_forall_mem_list ?_)
            exact fun a ha b _ hab => hnone a ha (hab.1.trans hn.symm)
          exact absurd (mark_of_mem inj hmem (hn ▸ hx hn)) hm
        · rw [write_free hm, Function.update_of_ne (fun he => hxk (inj he).symm),
            Function.update_of_ne (Ne.symm hn)]
          exact ih hlog hold

/-- With ever larger keys, of which a log has but finitely many, every key precedes the
next, once each key it holds ends as its last value. -/
theorem apart_of_last (rank : K → Nat) (rank_lt : ∀ k, rank k < rank (next k))
    {log : List (K × V)} (h : ∀ k v, last k log = some v → run next log k = .value v) :
    Apart next log := by
  obtain ⟨bound, hbound⟩ := bounded rank log
  -- down from the bound, by induction on how far below it the key is
  have step : ∀ n k, bound ≤ rank k + n → Precedes next k log := by
    intro n
    induction n with
    | zero =>
      intro k hk
      refine List.pairwise_of_forall_mem_list fun a _ b hb hab => ?_
      exact absurd (hbound b hb) (by rw [hab.2]; omega)
    | succ n ih =>
      intro k hk
      have hnext := ih (next k) (by have := rank_lt k; omega)
      by_contra hk
      have hmark := spoiled inj hnext hk
      have hmem : ∃ x ∈ log, x.1 = next k := by
        by_contra hnone
        push Not at hnone
        exact hk (List.pairwise_of_forall_mem_list fun a ha b _ hab => hnone a ha hab.1)
      obtain ⟨v, hv⟩ := last_of_mem hmem
      rw [h _ v hv] at hmark
      contradiction
  exact fun k => step bound k (Nat.le_add_left _ _)

/-- Every key ends as its last value exactly when that is its first value too, and none
is written after its next one. -/
theorem run_last_iff (rank : K → Nat) (rank_lt : ∀ k, rank k < rank (next k))
    (log : List (K × V)) :
    (∀ k v, last k log = some v → run next log k = .value v) ↔
      Apart next log ∧ ∀ k, first k log = last k log := by
  have ne : ∀ k, next k ≠ k := fun k he => absurd (rank_lt k) (by rw [he]; exact Nat.lt_irrefl _)
  refine ⟨fun h => ?_, ?_⟩
  · have hapart := apart_of_last inj rank rank_lt h
    refine ⟨hapart, fun k => ?_⟩
    rcases hf : first k log with _ | v
    · rcases hl : last k log with _ | u
      · rfl
      · obtain ⟨x, hx, hk⟩ := mem_of_first hl
        exact absurd hk (first_eq_none.mp hf x (List.mem_reverse.mp hx))
    · obtain ⟨u, hu⟩ := last_of_mem (mem_of_first hf)
      have heq := (run_first inj ne hapart hf).symm.trans (h k u hu)
      rw [hu, Slot.value.inj heq]
  · rintro ⟨hapart, hsame⟩ k v hv
    exact run_first inj ne hapart ((hsame k).trans hv)

end

end CdcPipeline.Library.Latch
