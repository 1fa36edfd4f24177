import Mathlib.Order.Lattice

namespace CdcPipeline.Library.Versioned

variable {ν α : Type} [LinearOrder ν]

/-- A cell that holds the newest value it was offered, with its version. -/
abbrev Cell (ν α : Type) := Option (ν × α)

/-- Only a strictly newer version replaces what is held. -/
def offer (c : Cell ν α) (x : ν × α) : Cell ν α :=
  match c with
  | none => some x
  | some y => if x.1 ≤ y.1 then some y else some x

/-- The cell has seen this version or a newer one. -/
def AtLeast (v : ν) (c : Cell ν α) : Prop := ∃ y, c = some y ∧ v ≤ y.1

theorem offer_cases (c : Cell ν α) (x : ν × α) : offer c x = c ∨ offer c x = some x := by
  cases c with
  | none => exact Or.inr rfl
  | some y =>
    by_cases h : x.1 ≤ y.1
    · exact Or.inl (if_pos h)
    · exact Or.inr (if_neg h)

theorem offer_atLeast (c : Cell ν α) (x : ν × α) : AtLeast x.1 (offer c x) := by
  cases c with
  | none => exact ⟨x, rfl, le_refl _⟩
  | some y =>
    by_cases h : x.1 ≤ y.1
    · exact ⟨y, if_pos h, h⟩
    · exact ⟨x, if_neg h, le_refl _⟩

/-- Offers never take a version back. -/
theorem AtLeast.offer {v : ν} {c : Cell ν α} (h : AtLeast v c) (x : ν × α) :
    AtLeast v (offer c x) := by
  obtain ⟨y, rfl, hv⟩ := h
  by_cases hx : x.1 ≤ y.1
  · exact ⟨y, if_pos hx, hv⟩
  · exact ⟨x, if_neg hx, hv.trans (le_of_not_ge hx)⟩

/-- An offer that is refused was not needed. -/
theorem offer_eq_of_atLeast {c : Cell ν α} {x : ν × α} (h : AtLeast x.1 c) : offer c x = c := by
  obtain ⟨y, rfl, hv⟩ := h
  exact if_pos hv

theorem offer_newer {c : Cell ν α} {x : ν × α} (h : ∀ y, c = some y → y.1 < x.1) :
    offer c x = some x := by
  cases c with
  | none => rfl
  | some y => exact if_neg (not_le_of_gt (h y rfl))

def replay (c : Cell ν α) (xs : List (ν × α)) : Cell ν α := xs.foldl offer c

theorem replay_atLeast_of {v : ν} {c : Cell ν α} (h : AtLeast v c) (xs : List (ν × α)) :
    AtLeast v (replay c xs) := by
  induction xs generalizing c with
  | nil => exact h
  | cons x xs ih => exact ih (h.offer x)

theorem replay_atLeast {x : ν × α} {xs : List (ν × α)} (h : x ∈ xs) (c : Cell ν α) :
    AtLeast x.1 (replay c xs) := by
  induction xs generalizing c with
  | nil => contradiction
  | cons y ys ih =>
    rcases List.mem_cons.mp h with rfl | h
    · exact replay_atLeast_of (offer_atLeast c x) ys
    · exact ih h _

theorem replay_mem {y : ν × α} {c : Cell ν α} {xs : List (ν × α)} (h : replay c xs = some y) :
    c = some y ∨ y ∈ xs := by
  induction xs generalizing c with
  | nil => exact Or.inl h
  | cons x xs ih =>
    rcases ih h with hc | hm
    · rcases offer_cases c x with he | he
      · exact Or.inl (he ▸ hc)
      · rw [he] at hc
        exact Or.inr (Option.some.inj hc ▸ List.mem_cons_self)
    · exact Or.inr (List.mem_cons_of_mem _ hm)

/-- However the offers are ordered and repeated, the newest one is what is left. -/
theorem replay_newest {x : ν × α} {xs : List (ν × α)} (hx : x ∈ xs) (hmax : ∀ y ∈ xs, y.1 ≤ x.1)
    (hinj : ∀ y ∈ xs, y.1 = x.1 → y = x) : replay none xs = some x := by
  obtain ⟨y, hy, hle⟩ := replay_atLeast hx none
  rcases replay_mem hy with hn | hm
  · contradiction
  · rw [hy, hinj y hm (le_antisymm (hmax y hm) hle)]

end CdcPipeline.Library.Versioned
