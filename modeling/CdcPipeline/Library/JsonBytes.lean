import CdcPipeline.Library.JsonReader

namespace CdcPipeline.Library.Json

open Text

/-- The bytes an escape puts in a string's place. -/
theorem escapeByte_cases (b : UInt8) :
    (escapeByte b = [b] ∧ 32 ≤ b) ∨ (b ≠ 39 ∧ ∀ c ∈ escapeByte b, 32 ≤ c ∧ c ≠ 39) := by
  have hhex : ∀ n < 16, 32 ≤ hexLower n ∧ hexLower n ≠ 39 := by decide
  have hb : b.toNat < 256 := b.toNat_lt
  unfold escapeByte
  split_ifs with h₁ h₂ h₃ h₄ h₅ h₆ h₇ h₈
  on_goal 8 =>
    right
    obtain ⟨h1, h1'⟩ := hhex (b.toNat / 16) (by omega)
    obtain ⟨h2, h2'⟩ := hhex (b.toNat % 16) (by omega)
    refine ⟨?_, by simp [h1, h1', h2, h2']⟩
    rintro rfl
    contradiction
  on_goal 8 => exact Or.inl ⟨rfl, UInt8.not_lt.mp h₈⟩
  all_goals
    right
    subst_vars
    exact ⟨by decide, forall_bytes (by decide)⟩

theorem printable_quoted {s : Bytes} {c : UInt8} (h : c ∈ quoted s) : 32 ≤ c := by
  simp only [quoted, List.cons_append, List.mem_cons, List.mem_append, List.mem_flatMap,
    List.not_mem_nil, or_false] at h
  rcases h with rfl | ⟨b, -, hc⟩ | rfl
  · decide
  · rcases escapeByte_cases b with ⟨he, hb⟩ | ⟨-, hall⟩
    · rw [he, List.mem_singleton] at hc
      exact hc ▸ hb
    · exact (hall c hc).1
  · decide

theorem quote_quoted (s : Bytes) : 39 ∈ quoted s ↔ s.contains 39 = true := by
  simp only [quoted, List.cons_append, List.mem_cons, List.mem_append, List.mem_flatMap,
    List.not_mem_nil, or_false, List.contains_iff_mem]
  constructor
  · rintro (h | ⟨b, hb, hc⟩ | h)
    · contradiction
    · rcases escapeByte_cases b with ⟨he, -⟩ | ⟨-, hall⟩
      · rw [he, List.mem_singleton] at hc
        exact hc ▸ hb
      · exact absurd rfl (hall 39 hc).2
    · contradiction
  · exact fun h => Or.inr (Or.inl ⟨39, h, by decide⟩)

theorem number_byte {s : Bytes} (h : s.all isNumberByte = true) {c : UInt8} (hc : c ∈ s) :
    32 ≤ c ∧ c ≠ 39 := by
  have hn := List.all_eq_true.mp h c hc
  simp only [isNumberByte, isDigit, Bool.or_eq_true, Bool.and_eq_true, decide_eq_true_eq] at hn
  rcases hn with ((((⟨hl, -⟩ | rfl) | rfl) | rfl) | rfl) | rfl
  · refine ⟨UInt8.le_trans (by decide) hl, ?_⟩
    rintro rfl
    contradiction
  all_goals decide

mutual

/-- Nothing that is written is a control byte. -/
theorem printable_dump (j : Json) {t : Bytes} (h : j.dump = .ok t) {c : UInt8} (hc : c ∈ t) :
    32 ≤ c := by
  match j with
  | .null | .bool true | .bool false =>
    simp only [dump, Except.ok.injEq] at h
    subst h
    exact forall_bytes (by decide) c hc
  | .int n =>
    simp only [dump, Except.ok.injEq] at h
    exact (number_byte (intText_bytes n).1 (h ▸ hc)).1
  | .float x =>
    simp only [dump, Except.ok.injEq] at h
    exact (number_byte x.chars (h ▸ hc)).1
  | .str s =>
    obtain rfl := dumpString_ok h
    exact printable_quoted hc
  | .arr xs =>
    simp only [dump, bind_ok, pure_ok] at h
    obtain ⟨body, hb, rfl⟩ := h
    simp only [List.cons_append, List.mem_cons, List.mem_append, List.not_mem_nil, or_false] at hc
    rcases hc with rfl | hc | rfl
    · decide
    · exact printable_dumpItems xs hb hc
    · decide
  | .obj ms =>
    simp only [dump, bind_ok, pure_ok] at h
    obtain ⟨body, hb, rfl⟩ := h
    simp only [List.cons_append, List.mem_cons, List.mem_append, List.not_mem_nil, or_false] at hc
    rcases hc with rfl | hc | rfl
    · decide
    · exact printable_dumpMembers ms hb hc
    · decide

theorem printable_dumpItems (xs : List Json) {t : Bytes} (h : dumpItems xs = .ok t) {c : UInt8}
    (hc : c ∈ t) : 32 ≤ c := by
  match xs with
  | [] =>
    simp only [dumpItems, Except.ok.injEq] at h
    subst h
    contradiction
  | [x] => exact printable_dump x h hc
  | x :: y :: ys =>
    simp only [dumpItems, bind_ok, pure_ok] at h
    obtain ⟨head, hx, rest, hys, rfl⟩ := h
    rw [List.mem_append, List.mem_cons] at hc
    rcases hc with hc | rfl | hc
    · exact printable_dump x hx hc
    · decide
    · exact printable_dumpItems (y :: ys) hys hc

theorem printable_dumpMembers (ms : List (Bytes × Json)) {t : Bytes} (h : dumpMembers ms = .ok t)
    {c : UInt8} (hc : c ∈ t) : 32 ≤ c := by
  match ms with
  | [] =>
    simp only [dumpMembers, Except.ok.injEq] at h
    subst h
    contradiction
  | [(k, v)] =>
    simp only [dumpMembers, bind_ok, pure_ok] at h
    obtain ⟨key, hk, value, hv, rfl⟩ := h
    obtain rfl := dumpString_ok hk
    rw [List.mem_append, List.mem_cons] at hc
    rcases hc with hc | rfl | hc
    · exact printable_quoted hc
    · decide
    · exact printable_dump v hv hc
  | (k, v) :: m :: ms =>
    simp only [dumpMembers, bind_ok, pure_ok] at h
    obtain ⟨key, hk, value, hv, rest, hms, rfl⟩ := h
    obtain rfl := dumpString_ok hk
    simp only [List.append_assoc, List.cons_append, List.mem_append, List.mem_cons] at hc
    rcases hc with hc | rfl | hc | rfl | hc
    · exact printable_quoted hc
    · decide
    · exact printable_dump v hv hc
    · decide
    · exact printable_dumpMembers (m :: ms) hms hc

end

theorem noNul_dump (j : Json) {t : Bytes} (h : j.dump = .ok t) : 0 ∉ t :=
  fun h0 => absurd (printable_dump j h h0) (by decide)

mutual

/-- An apostrophe is written where one is in a string or a key, and nowhere else. -/
theorem quote_dump (j : Json) {t : Bytes} (h : j.dump = .ok t) :
    39 ∈ t ↔ j.mentions 39 = true := by
  match j with
  | .null | .bool true | .bool false =>
    simp only [dump, Except.ok.injEq] at h
    subst h
    decide
  | .int n =>
    simp only [dump, Except.ok.injEq] at h
    subst h
    simp only [mentions, Bool.false_eq_true, iff_false]
    exact fun hc => (number_byte (intText_bytes n).1 hc).2 rfl
  | .float x =>
    simp only [dump, Except.ok.injEq] at h
    subst h
    simp only [mentions, Bool.false_eq_true, iff_false]
    exact fun hc => (number_byte x.chars hc).2 rfl
  | .str s =>
    obtain rfl := dumpString_ok h
    exact quote_quoted s
  | .arr xs =>
    simp only [dump, bind_ok, pure_ok] at h
    obtain ⟨body, hb, rfl⟩ := h
    simp [mentions, quote_dumpItems xs hb]
  | .obj ms =>
    simp only [dump, bind_ok, pure_ok] at h
    obtain ⟨body, hb, rfl⟩ := h
    simp [mentions, quote_dumpMembers ms hb]

theorem quote_dumpItems (xs : List Json) {t : Bytes} (h : dumpItems xs = .ok t) :
    39 ∈ t ↔ mentionsItems 39 xs = true := by
  match xs with
  | [] =>
    simp only [dumpItems, Except.ok.injEq] at h
    subst h
    decide
  | [x] =>
    rw [mentionsItems, mentionsItems, Bool.or_false]
    exact quote_dump x h
  | x :: y :: ys =>
    simp only [dumpItems, bind_ok, pure_ok] at h
    obtain ⟨head, hx, rest, hys, rfl⟩ := h
    rw [mentionsItems, Bool.or_eq_true, ← quote_dump x hx, ← quote_dumpItems (y :: ys) hys]
    simp

theorem quote_dumpMembers (ms : List (Bytes × Json)) {t : Bytes} (h : dumpMembers ms = .ok t) :
    39 ∈ t ↔ mentionsMembers 39 ms = true := by
  match ms with
  | [] =>
    simp only [dumpMembers, Except.ok.injEq] at h
    subst h
    decide
  | [(k, v)] =>
    simp only [dumpMembers, bind_ok, pure_ok] at h
    obtain ⟨key, hk, value, hv, rfl⟩ := h
    obtain rfl := dumpString_ok hk
    rw [mentionsMembers, mentionsMembers, Bool.or_false, Bool.or_eq_true, ← quote_quoted,
      ← quote_dump v hv]
    simp
  | (k, v) :: m :: ms =>
    simp only [dumpMembers, bind_ok, pure_ok] at h
    obtain ⟨key, hk, value, hv, rest, hms, rfl⟩ := h
    obtain rfl := dumpString_ok hk
    rw [mentionsMembers, Bool.or_eq_true, Bool.or_eq_true, ← quote_quoted, ← quote_dump v hv,
      ← quote_dumpMembers (m :: ms) hms]
    simp [or_assoc]

end

end CdcPipeline.Library.Json
