import CdcPipeline.Library.Versioned

namespace CdcPipeline.Library.Replay

open Versioned

variable {κ ε ν α : Type} [DecidableEq κ] [LinearOrder ν]

section Last

variable (key : ε → Option κ) (k : κ)

def overwrite (c : Option ε) (e : ε) : Option ε := if key e = some k then some e else c

/-- The last entry of a log that is about `k`. -/
def last (log : List ε) : Option ε := log.foldl (overwrite key k) none

theorem last_take_succ {log : List ε} {n : Nat} {e : ε} (he : log[n]? = some e) :
    last key k (log.take (n + 1)) = overwrite key k (last key k (log.take n)) e := by
  rw [List.take_add_one, he, last, List.foldl_append]
  rfl

variable {key k}

/-- What a prefix leaves is one of its entries. -/
theorem last_take_mem {log : List ε} {n : Nat} {y : ε} (h : last key k (log.take n) = some y) :
    ∃ i < n, log[i]? = some y ∧ key y = some k := by
  induction n with
  | zero => simp [last] at h
  | succ n ih =>
    cases he : log[n]? with
    | none =>
      rw [List.take_add_one, he] at h
      obtain ⟨i, hi, hy⟩ := ih (by simpa using h)
      exact ⟨i, Nat.lt_succ_of_lt hi, hy⟩
    | some e =>
      rw [last_take_succ key k he, overwrite] at h
      split at h
      · rename_i hk
        obtain rfl := Option.some.inj h
        exact ⟨n, Nat.lt_succ_self n, he, hk⟩
      · obtain ⟨i, hi, hy⟩ := ih h
        exact ⟨i, Nat.lt_succ_of_lt hi, hy⟩

/-- A prefix that contains an entry about `k` leaves it or a later one. -/
theorem last_take_ge {log : List ε} {n m : Nat} {e : ε} (he : log[n]? = some e)
    (hk : key e = some k) (h : n < m) :
    ∃ i y, n ≤ i ∧ log[i]? = some y ∧ key y = some k ∧ last key k (log.take m) = some y := by
  induction h with
  | refl =>
    exact ⟨n, e, Nat.le_refl n, he, hk, by rw [last_take_succ key k he, overwrite, if_pos hk]⟩
  | @step m hm ih =>
    obtain ⟨i, y, hi, hy, hky, hl⟩ := ih
    cases hx : log[m]? with
    | none => exact ⟨i, y, hi, hy, hky, by simpa [List.take_add_one, hx] using hl⟩
    | some x =>
      by_cases hkx : key x = some k
      · refine ⟨m, x, Nat.le_of_lt hm, hx, hkx, ?_⟩
        rw [last_take_succ key k hx, overwrite, if_pos hkx]
      · refine ⟨i, y, hi, hy, hky, ?_⟩
        rw [last_take_succ key k hx, overwrite, if_neg hkx, hl]

/-- What a log leaves is the end of what it says about `k`, or what was there. -/
theorem foldl_overwrite (c : Option ε) (log : List ε) : log.foldl (overwrite key k) c =
    ((log.filter fun e => key e = some k).getLast?).or c := by
  induction log generalizing c with
  | nil => rfl
  | cons e log ih =>
    rw [List.foldl_cons, ih, overwrite]
    by_cases hk : key e = some k
    · rw [if_pos hk, List.filter_cons_of_pos (by simpa using hk), List.getLast?_cons]
      cases (log.filter fun e => key e = some k).getLast? <;> rfl
    · rw [if_neg hk, List.filter_cons_of_neg (by simpa using hk)]

theorem last_eq_getLast (log : List ε) :
    last key k log = (log.filter fun e => key e = some k).getLast? := by
  rw [last, foldl_overwrite, Option.or_none]

end Last

/-- The cell shows what some prefix of the log leaves of `k`, of length `n` or more. A
reader that goes back to `n` finds it so, whatever it had written beyond. -/
def Upto (key : ε → Option κ) (log : List ε) (k : κ) (n : Nat) (c : Option ε) : Prop :=
  ∃ m, n ≤ m ∧ last key k (log.take m) = c

variable {key : ε → Option κ} {log : List ε} {k : κ} {n : Nat} {c : Option ε} {e : ε}

theorem upto_start : Upto key log k 0 none := ⟨0, Nat.le_refl 0, rfl⟩

theorem Upto.anti (h : Upto key log k (n + 1) c) : Upto key log k n c := by
  obtain ⟨m, hm, hl⟩ := h
  exact ⟨m, Nat.le_of_succ_le hm, hl⟩

/-- An entry about something else takes the reader on. -/
theorem Upto.skip (h : Upto key log k n c) (he : log[n]? = some e) (hk : key e ≠ some k) :
    Upto key log k (n + 1) c := by
  obtain ⟨m, hm, hl⟩ := h
  rcases Nat.lt_or_eq_of_le hm with hlt | rfl
  · exact ⟨m, hlt, hl⟩
  · exact ⟨n + 1, Nat.le_refl _, by rw [last_take_succ key k he, overwrite, if_neg hk, hl]⟩

/-- Writing an entry over whatever was there takes the reader on. -/
theorem upto_write (he : log[n]? = some e) (hk : key e = some k) :
    Upto key log k (n + 1) (some e) :=
  ⟨n + 1, Nat.le_refl _, by rw [last_take_succ key k he, overwrite, if_pos hk]⟩

/-- So does offering it to a versioned cell, where versions increase along the log. -/
theorem Upto.offer {f : ε → ν × α} (h : Upto key log k n c) (he : log[n]? = some e)
    (hk : key e = some k)
    (increasing : ∀ (i j : Nat) (x y : ε), i < j → log[i]? = some x → log[j]? = some y →
      key x = some k → key y = some k → (f x).1 < (f y).1) :
    ∃ c', Upto key log k (n + 1) c' ∧ offer (c.map f) (f e) = c'.map f := by
  obtain ⟨m, hm, rfl⟩ := h
  rcases Nat.lt_or_eq_of_le hm with hlt | rfl
  · obtain ⟨i, y, hi, hy, hky, hl⟩ := last_take_ge he hk hlt
    refine ⟨_, ⟨m, hlt, rfl⟩, ?_⟩
    apply offer_eq_of_atLeast
    refine ⟨f y, by rw [hl]; rfl, ?_⟩
    rcases Nat.lt_or_eq_of_le hi with hni | rfl
    · exact le_of_lt (increasing n i e y hni he hy hk hky)
    · rw [Option.some.inj (he.symm.trans hy)]
  · refine ⟨some e, upto_write he hk, ?_⟩
    apply offer_newer
    intro z hz
    obtain ⟨y, hly, rfl⟩ := Option.map_eq_some_iff.mp hz
    obtain ⟨i, hi, hy, hky⟩ := last_take_mem hly
    exact increasing i n y e hi hy he hky hk

/-- At the end of the log nothing but its last entry about `k` can be shown. -/
theorem Upto.end (h : Upto key log k log.length c) : c = last key k log := by
  obtain ⟨m, hm, rfl⟩ := h
  rw [List.take_of_length_le hm]

end CdcPipeline.Library.Replay
