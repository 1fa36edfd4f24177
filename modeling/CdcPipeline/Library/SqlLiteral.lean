import CdcPipeline.Library.SqlLexer

namespace CdcPipeline.Library.Sql

open Text

theorem feed_literal {u : Bytes} (h : 39 ∉ u) (s : Bytes) :
    feed (.literal s) u = some ([], .literal (s ++ u)) := by
  induction u generalizing s with
  | nil => simp [feed]
  | cons b u ih =>
    rw [List.mem_cons, not_or] at h
    have hb : ¬ b = 39 := fun he => h.1 he.symm
    simp only [feed, step, hb, if_false, ih h.2, emit, Option.map_some, List.nil_append,
      List.append_assoc, List.singleton_append]

/-- Between its quotes, a text without one is what the literal denotes. -/
theorem run_literal {u : Bytes} (h : 39 ∉ u) (s w : Bytes) :
    run (.literal s) (u ++ 39 :: w) = run (.behind (s ++ u) .quote) w := by
  rw [run_feed (feed_literal h s)]
  simp [run, step]

theorem run_comment {w : Bytes} (h : ∀ b ∈ w, isNewline b = false) (s : Bytes) :
    run (.behind s .comment) w = some [.string s] := by
  induction w with
  | nil => rfl
  | cons b w ih =>
    rw [List.forall_mem_cons] at h
    simp only [run, step, stepBehind, h.1, Bool.false_eq_true, if_false, ih h.2, Option.map_some,
      List.nil_append]

/-- The literal that was begun in front of `v` is still open, or not yet known to be closed.
It has lost a byte with every quote it has met. -/
def Within (v : Bytes) : State → Prop
  | .literal s => s ⊆ v ∧ (s = v ∧ 39 ∉ v ∨ s.length < v.length)
  | .behind s at_ => s ⊆ v ∧ s.length < v.length ∧ match at_ with
    | .quote => [39] <:+ v
    | .gap _ => (∃ b, isSpace b = true ∧ [b] <:+ v) ∧ ¬ [44, 32] <:+ v
    | _ => True
  | _ => False

/-- It was closed on the way, and is shorter than what was read. -/
def Ended (v : Bytes) (out : List Token) : Prop :=
  ∃ s rest, out = .string s :: rest ∧ s ⊆ v ∧ s.length < v.length

theorem Ended.snoc {v : Bytes} {out : List Token} (h : Ended v out) (b : UInt8)
    (more : List Token) : Ended (v ++ [b]) (out ++ more) := by
  obtain ⟨s, rest, rfl, hsub, hlen⟩ := h
  refine ⟨s, rest ++ more, rfl, fun c hc => List.mem_append_left _ (hsub hc), ?_⟩
  rw [List.length_append]
  omega

theorem newline_space {b : UInt8} (h : isNewline b = true) : isSpace b = true ∧ b ≠ 32 := by
  simp only [isNewline, Bool.or_eq_true, decide_eq_true_eq] at h
  rcases h with rfl | rfl
  · decide
  · decide

theorem suffix_snoc {v : Bytes} {b c : UInt8} : [c] <:+ v ++ [b] ↔ c = b := by
  constructor
  · rintro ⟨t, ht⟩
    exact (List.cons.inj (List.append_inj' ht rfl).2).1
  · rintro rfl
    exact ⟨v, rfl⟩

theorem comma_snoc {v : Bytes} {b : UInt8} : [44, 32] <:+ v ++ [b] ↔ b = 32 ∧ [44] <:+ v := by
  constructor
  · rintro ⟨t, ht⟩
    rw [show t ++ [44, 32] = t ++ [44] ++ [32] by simp] at ht
    obtain ⟨hv, hb⟩ := List.append_inj' ht rfl
    exact ⟨(List.cons.inj hb).1.symm, ⟨t, hv⟩⟩
  · rintro ⟨rfl, t, rfl⟩
    exact ⟨t, by simp⟩

/-- A literal's text and another byte. -/
theorem grown {v s : Bytes} (b : UInt8) (hsub : s ⊆ v) (hlen : s.length < v.length) :
    s ⊆ v ++ [b] ∧ s.length < (v ++ [b]).length := by
  refine ⟨fun c hc => List.mem_append_left _ (hsub hc), ?_⟩
  rw [List.length_append]
  omega

theorem emit_ended {v s : Bytes} {next : Option (List Token × State)} {out : List Token}
    {st : State} (hsub : s ⊆ v) (hlen : s.length < v.length)
    (h : emit [.string s] next = some (out, st)) : Ended v out := by
  obtain ⟨n, -, hn⟩ := Option.map_eq_some_iff.mp h
  obtain ⟨rfl, -⟩ := Prod.mk.inj hn
  exact ⟨s, n.1, rfl, hsub, hlen⟩

/-- One byte of white space, or what ends the literal. -/
theorem stepGap_within {v s : Bytes} {newline : Bool} {b : UInt8} {out : List Token} {st : State}
    (hsub : s ⊆ v) (hlen : s.length < v.length) (hlast : ¬ [44] <:+ v)
    (h : stepGap s newline b = some (out, st)) :
    (out = [] ∧ Within (v ++ [b]) st) ∨ Ended (v ++ [b]) out := by
  obtain ⟨hsub', hlen'⟩ := grown b hsub hlen
  unfold stepGap at h
  split_ifs at h with hn hs hd
  · obtain ⟨rfl, rfl⟩ := Prod.mk.inj (Option.some.inj h)
    obtain ⟨hspace, hne⟩ := newline_space hn
    exact Or.inl ⟨rfl, hsub', hlen', ⟨b, hspace, suffix_snoc.mpr rfl⟩,
      fun hc => hne (comma_snoc.mp hc).1⟩
  · obtain ⟨rfl, rfl⟩ := Prod.mk.inj (Option.some.inj h)
    exact Or.inl ⟨rfl, hsub', hlen', ⟨b, hs, suffix_snoc.mpr rfl⟩,
      fun hc => hlast (comma_snoc.mp hc).2⟩
  · obtain ⟨rfl, rfl⟩ := Prod.mk.inj (Option.some.inj h)
    exact Or.inl ⟨rfl, hsub', hlen', trivial⟩
  · exact Or.inr (emit_ended hsub' hlen' h)

theorem stepBehind_within {v s : Bytes} {at_ : Behind} {b : UInt8} {out : List Token} {st : State}
    (hv : Within v (.behind s at_)) (h : stepBehind s b at_ = some (out, st)) :
    (out = [] ∧ Within (v ++ [b]) st) ∨ Ended (v ++ [b]) out := by
  obtain ⟨hsub, hlen, hat⟩ := hv
  obtain ⟨hsub', hlen'⟩ := grown b hsub hlen
  cases at_ with
  | quote =>
    simp only [stepBehind] at h
    split_ifs at h with hq
    · obtain ⟨rfl, rfl⟩ := Prod.mk.inj (Option.some.inj h)
      subst hq
      refine Or.inl ⟨rfl, ?_, Or.inr ?_⟩
      · intro c hc
        rw [List.mem_append] at hc ⊢
        exact hc.imp_left fun hc => hsub hc
      · simpa using hlen
    · refine stepGap_within hsub hlen ?_ h
      obtain ⟨t, rfl⟩ := hat
      rw [suffix_snoc]
      decide
  | gap newline =>
    simp only [stepBehind] at h
    split_ifs at h with hq hn
    · obtain ⟨rfl, rfl⟩ := Prod.mk.inj (Option.some.inj h)
      exact Or.inl ⟨rfl, hsub', Or.inr hlen'⟩
    · obtain ⟨rfl, rfl⟩ := Prod.mk.inj (Option.some.inj h)
      exact Or.inr ⟨s, [], rfl, hsub', hlen'⟩
    · refine stepGap_within hsub hlen ?_ h
      obtain ⟨⟨c, hc, t, rfl⟩, -⟩ := hat
      rw [suffix_snoc]
      rintro rfl
      contradiction
  | dash newline =>
    simp only [stepBehind] at h
    split_ifs at h
    · obtain ⟨rfl, rfl⟩ := Prod.mk.inj (Option.some.inj h)
      exact Or.inl ⟨rfl, hsub', hlen', trivial⟩
    · exact Or.inr (emit_ended hsub' hlen' h)
  | comment =>
    simp only [stepBehind] at h
    split_ifs at h with hn
    · obtain ⟨rfl, rfl⟩ := Prod.mk.inj (Option.some.inj h)
      obtain ⟨hspace, hne⟩ := newline_space hn
      exact Or.inl ⟨rfl, hsub', hlen', ⟨b, hspace, suffix_snoc.mpr rfl⟩,
        fun hc => hne (comma_snoc.mp hc).1⟩
    · obtain ⟨rfl, rfl⟩ := Prod.mk.inj (Option.some.inj h)
      exact Or.inl ⟨rfl, hsub', hlen', trivial⟩

theorem step_within {v : Bytes} {st st' : State} {b : UInt8} {out : List Token}
    (hv : Within v st) (h : step st b = some (out, st')) :
    (out = [] ∧ Within (v ++ [b]) st') ∨ Ended (v ++ [b]) out := by
  cases st with
  | literal s =>
    obtain ⟨hsub, hs⟩ := hv
    have hle : s.length ≤ v.length := by
      rcases hs with ⟨rfl, -⟩ | hlt
      · exact Nat.le_refl _
      · exact Nat.le_of_lt hlt
    simp only [step] at h
    split_ifs at h with hq
    · obtain ⟨rfl, rfl⟩ := Prod.mk.inj (Option.some.inj h)
      subst hq
      refine Or.inl ⟨rfl, fun c hc => List.mem_append_left _ (hsub hc), ?_, ⟨v, rfl⟩⟩
      rw [List.length_append]
      exact Nat.lt_succ_of_le hle
    · obtain ⟨rfl, rfl⟩ := Prod.mk.inj (Option.some.inj h)
      refine Or.inl ⟨rfl, ?_, ?_⟩
      · intro c hc
        rw [List.mem_append] at hc ⊢
        exact hc.imp_left fun hc => hsub hc
      · rcases hs with ⟨rfl, hno⟩ | hlt
        · refine Or.inl ⟨rfl, ?_⟩
          rw [List.mem_append, List.mem_singleton, not_or]
          exact ⟨hno, fun he => hq he.symm⟩
        · exact Or.inr (by simpa using hlt)
  | behind s at_ => exact stepBehind_within hv h
  | _ => exact absurd hv id

/-- What a literal has come to, by induction on what was read, a byte at a time. -/
theorem feed_within (v : Bytes) {out : List Token} {st : State}
    (h : feed (.literal []) v = some (out, st)) : (out = [] ∧ Within v st) ∨ Ended v out := by
  induction v using List.reverseRecOn generalizing out st with
  | nil =>
    obtain ⟨rfl, rfl⟩ := Prod.mk.inj (Option.some.inj h)
    exact Or.inl ⟨rfl, fun _ hc => hc, Or.inl ⟨rfl, List.not_mem_nil⟩⟩
  | append_singleton v b ih =>
    rw [feed_append] at h
    obtain ⟨⟨out₁, st₁⟩, h₁, h₂⟩ := Option.bind_eq_some_iff.mp h
    obtain ⟨⟨out₂, st₂⟩, h₃, he⟩ := Option.map_eq_some_iff.mp h₂
    obtain ⟨rfl, rfl⟩ := Prod.mk.inj he
    rcases ih h₁ with ⟨rfl, hw⟩ | hended
    · simp only [feed] at h₃
      cases hs : step st₁ b with
      | none => simp [hs] at h₃
      | some r =>
        obtain ⟨out₃, st₃⟩ := r
        simp only [hs, emit, Option.map_some, List.append_nil, Option.some.injEq,
          Prod.mk.injEq] at h₃
        obtain ⟨rfl, rfl⟩ := h₃
        exact step_within hw hs
    · exact Or.inr (hended.snoc b out₂)

/-- A literal at the end of a statement denotes bytes that were there. -/
theorem literal_subset {u s : Bytes} {rest : List Token}
    (h : run (.literal []) u = some (.string s :: rest)) : s ⊆ u := by
  rw [← List.append_nil u, run_append] at h
  obtain ⟨⟨out, st⟩, hf, hr⟩ := Option.bind_eq_some_iff.mp h
  obtain ⟨ts, hts, he⟩ := Option.map_eq_some_iff.mp hr
  rcases feed_within u hf with ⟨rfl, hw⟩ | ⟨s', rest', rfl, hsub, -⟩
  · cases st with
    | behind s' at_ =>
      have hs' : ∃ rest', ts = .string s' :: rest' := by
        cases at_ with
        | _ => exact ⟨_, (Option.some.inj hts).symm⟩
      obtain ⟨rest', rfl⟩ := hs'
      obtain rfl := Token.string.inj (List.cons.inj he).1
      exact hw.1
    | literal s' => cases hts
    | _ => exact absurd hw id
  · obtain rfl := Token.string.inj (List.cons.inj he).1
    exact hsub

/-- What may follow a literal's last quote for a quote inside of it never to go unnoticed:
it closes a literal, one that swallows it ends with a comma and a blank, and it ends no
comment. -/
structure Closes (w : Bytes) : Prop where
  here : ∀ s ts, run (.behind s .quote) w = some ts → ∃ rest, ts = .string s :: rest
  comma : ∀ s ts, run (.literal s) w = some ts → ∃ x rest, ts = .string (s ++ x ++ [44, 32]) :: rest
  line : ∀ b ∈ w, isNewline b = false

/-- A text with a quote in it, put between quotes as it is, is not what the literal denotes. -/
theorem literal_ne {u w : Bytes} (hw : Closes w) (hq : 39 ∈ u) {rest : List Token} :
    run (.literal []) (u ++ 39 :: w) ≠ some (.string u :: rest) := by
  intro h
  rw [run_append] at h
  obtain ⟨⟨out, st⟩, hf, hr⟩ := Option.bind_eq_some_iff.mp h
  obtain ⟨ts, hts, he⟩ := Option.map_eq_some_iff.mp hr
  have short : ∀ {s : Bytes} {rest' : List Token}, s.length < u.length →
      .string s :: rest' = .string u :: rest → False := by
    intro s rest' hlt he
    obtain rfl := Token.string.inj (List.cons.inj he).1
    omega
  rcases feed_within u hf with ⟨rfl, hin⟩ | ⟨s, rest', rfl, -, hlt⟩
  · simp only [List.nil_append] at he
    subst he
    cases st with
    | literal s =>
      obtain ⟨-, ⟨rfl, hno⟩ | hlt⟩ := hin
      · exact hno hq
      · simp only [run, step, if_true] at hts
        obtain ⟨ts', hts', he⟩ := Option.map_eq_some_iff.mp hts
        obtain ⟨rest', rfl⟩ := hw.here s _ hts'
        exact short hlt he
    | behind s at_ =>
      obtain ⟨-, hlt, hat⟩ := hin
      cases at_ with
      | quote =>
        -- the last quote is taken for the second of two
        simp only [run, step, stepBehind, if_true] at hts
        obtain ⟨ts', hts', he⟩ := Option.map_eq_some_iff.mp hts
        obtain ⟨x, rest', rfl⟩ := hw.comma _ _ hts'
        obtain rfl := Token.string.inj (List.cons.inj he).1
        rw [show s ++ [39] ++ x ++ [44, 32] = s ++ [39] ++ x ++ [44] ++ [32] by simp,
          suffix_snoc] at hat
        exact absurd (show (39 : UInt8) = 32 from hat) (by decide)
      | gap newline =>
        cases newline with
        | true =>
          -- the last quote takes the literal up again
          simp only [run, step, stepBehind, if_true] at hts
          obtain ⟨ts', hts', he⟩ := Option.map_eq_some_iff.mp hts
          obtain ⟨x, rest', rfl⟩ := hw.comma _ _ hts'
          obtain rfl := Token.string.inj (List.cons.inj he).1
          exact hat.2 ⟨_, rfl⟩
        | false =>
          simp only [run, step, stepBehind, if_true, Bool.false_eq_true, if_false] at hts
          obtain ⟨ts', -, he⟩ := Option.map_eq_some_iff.mp hts
          exact short hlt he
      | dash newline =>
        simp only [run] at hts
        cases hs : step (.behind s (.dash newline)) 39 with
        | none => simp [hs] at hts
        | some r =>
          obtain ⟨out, st'⟩ := r
          simp only [hs] at hts
          obtain ⟨ts', -, he⟩ := Option.map_eq_some_iff.mp hts
          obtain ⟨n, -, hn⟩ := Option.map_eq_some_iff.mp
            (show emit [.string s] (stepOperator [45] 39) = some (out, st') from hs)
          obtain ⟨rfl, -⟩ := Prod.mk.inj hn
          exact short hlt he
      | comment =>
        simp only [run, step, stepBehind, show isNewline 39 = false from rfl, Bool.false_eq_true,
          if_false, run_comment hw.line, Option.map_some, Option.some.injEq] at hts
        exact short hlt hts
    | _ => exact absurd hin id
  · exact short hlt he

/-- A literal that denotes what was put between its quotes, in a statement that is passed
on up to its first NUL, was given a text with neither a quote nor a NUL. -/
theorem literal_clean {u w : Bytes} {rest : List Token} (hw : Closes w) (hnul : 0 ∉ w)
    (h : run (.literal []) (cString (u ++ 39 :: w)) = some (.string u :: rest)) :
    39 ∉ u ∧ 0 ∉ u := by
  have h0 : 0 ∉ u := by
    intro h0
    rw [cString_cut h0] at h
    exact noNul_cString u (literal_subset h h0)
  have hw0 : (0 : UInt8) ∉ 39 :: w := by
    rw [List.mem_cons, not_or]
    exact ⟨by decide, hnul⟩
  rw [cString_append h0, cString_eq hw0] at h
  exact ⟨fun hq => literal_ne hw hq h, h0⟩

end CdcPipeline.Library.Sql
