import Mathlib.Data.List.Basic

namespace CdcPipeline.Library.Lease

variable {K : Type}

/-- A request for a key, and when it was decided. -/
structure Request (K : Type) where
  key : K
  time : Nat

/-- A table that grants a free key for a period and denies one that is taken. The own
keys are those that nothing but a grant sets. -/
structure Kept (own : K → Prop) (period now : Nat) (expiry : K → Option Nat)
    (granted denied : List (Request K)) : Prop where
  owned : ∀ g ∈ granted, own g.key
  covered : ∀ g ∈ granted, ∃ u, expiry g.key = some u ∧ g.time + period ≤ u
  backed : ∀ k u, own k → expiry k = some u →
    ∃ g ∈ granted, g.key = k ∧ g.time ≤ now ∧ u = g.time + period
  spaced : granted.Pairwise (fun g g' => g.key = g'.key → g.time + period ≤ g'.time)
  excused : ∀ r ∈ denied, ∃ g ∈ granted, g.key = r.key ∧ g.time ≤ r.time ∧
    r.time ≤ g.time + period

variable {own : K → Prop} {period now : Nat} {expiry : K → Option Nat}
  {granted denied : List (Request K)}

theorem kept_nil : Kept own period now (fun _ => none) [] [] where
  owned := fun _ h => absurd h List.not_mem_nil
  covered := fun _ h => absurd h List.not_mem_nil
  backed := fun _ _ _ h => by contradiction
  spaced := .nil
  excused := fun _ h => absurd h List.not_mem_nil

/-- Time may pass, and other keys may change. -/
theorem Kept.frame (h : Kept own period now expiry granted denied) {now' : Nat}
    {expiry' : K → Option Nat} (hnow : now ≤ now')
    (hsame : ∀ k, own k → expiry' k = expiry k) :
    Kept own period now' expiry' granted denied where
  owned := h.owned
  covered := by
    intro g hg
    rw [hsame g.key (h.owned g hg)]
    exact h.covered g hg
  backed := by
    intro k u hk hu
    rw [hsame k hk] at hu
    obtain ⟨g, hg, hkey, hpast, hu⟩ := h.backed k u hk hu
    exact ⟨g, hg, hkey, Nat.le_trans hpast hnow, hu⟩
  spaced := h.spaced
  excused := h.excused

/-- A free key is granted: its earlier grants have run out. -/
theorem Kept.grant (h : Kept own period now expiry granted denied) {k : K}
    {expiry' : K → Option Nat} (hk : own k) (free : ∀ u, expiry k = some u → u < now)
    (hself : expiry' k = some (now + period))
    (hothers : ∀ k', k' ≠ k → expiry' k' = expiry k') :
    Kept own period now expiry' (granted ++ [⟨k, now⟩]) denied where
  owned := by
    intro g hg
    rcases List.mem_append.mp hg with hg | hg
    · exact h.owned g hg
    · rw [List.mem_singleton.mp hg]
      exact hk
  covered := by
    intro g hg
    rcases List.mem_append.mp hg with hg | hg
    · obtain ⟨u, hu, hle⟩ := h.covered g hg
      by_cases hkey : g.key = k
      · rw [hkey] at hu ⊢
        have hlt := free u hu
        exact ⟨_, hself, by omega⟩
      · rw [hothers g.key hkey]
        exact ⟨u, hu, hle⟩
    · rw [List.mem_singleton.mp hg]
      exact ⟨_, hself, Nat.le_refl _⟩
  backed := by
    intro k' u hk' hu
    by_cases hkey : k' = k
    · subst hkey
      rw [hself] at hu
      refine ⟨⟨k', now⟩, ?_, rfl, Nat.le_refl _, ?_⟩
      · exact List.mem_append_right _ (List.mem_singleton.mpr rfl)
      exact (Option.some.inj hu).symm
    · rw [hothers k' hkey] at hu
      obtain ⟨g, hg, hrest⟩ := h.backed k' u hk' hu
      exact ⟨g, List.mem_append_left _ hg, hrest⟩
  spaced := by
    apply List.pairwise_append.mpr
    refine ⟨h.spaced, List.pairwise_singleton _ _, ?_⟩
    intro g hg g' hg' hkey
    obtain rfl := List.mem_singleton.mp hg'
    obtain ⟨u, hu, hle⟩ := h.covered g hg
    rw [show g.key = k from hkey] at hu
    exact Nat.le_trans hle (Nat.le_of_lt (free u hu))
  excused := by
    intro r hr
    obtain ⟨g, hg, hrest⟩ := h.excused r hr
    exact ⟨g, List.mem_append_left _ hg, hrest⟩

/-- A taken key is denied, and the grant that took it is the reason. -/
theorem Kept.deny (h : Kept own period now expiry granted denied) {k : K} {u : Nat} (hk : own k)
    (taken : expiry k = some u) (hu : now ≤ u) :
    Kept own period now expiry granted (denied ++ [⟨k, now⟩]) where
  owned := h.owned
  covered := h.covered
  backed := h.backed
  spaced := h.spaced
  excused := by
    intro r hr
    rcases List.mem_append.mp hr with hr | hr
    · exact h.excused r hr
    · rw [List.mem_singleton.mp hr]
      obtain ⟨g, hg, hkey, hpast, hu'⟩ := h.backed k u hk taken
      exact ⟨g, hg, hkey, hpast, hu' ▸ hu⟩

end CdcPipeline.Library.Lease
