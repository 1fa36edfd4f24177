import CdcPipeline.Library.JsonLexer
import Mathlib.Data.List.MinMax

namespace CdcPipeline.Library.JsonTemplate

open Text JsonString JsonLexer

/-- A quoted part of a hand-written document, and the text from its closing quote to the
next part or the end: punctuation and numbers. -/
structure Slot where
  content : Bytes
  gap : Bytes
  marks : List Token
  ordinary : gap.all ordinary = true
  reads : gap.foldlM step ([], .between) = some (marks, .between)

def render : List Slot → Bytes
  | [] => []
  | p :: ps => [0x22] ++ p.content ++ [0x22] ++ (p.gap ++ render ps)

def tokens (ps : List Slot) : List Token := ps.flatMap (fun p => .text p.content :: p.marks)

theorem Slot.run (p : Slot) (out : List Token) :
    p.gap.foldlM step (out, .between) = some (out ++ p.marks, .between) := by
  have h := run_out out ([], .between) p.gap
  rw [p.reads, List.append_nil] at h
  exact h

theorem Slot.textless (p : Slot) (s : Bytes) : .text s ∉ p.marks := by
  intro hs
  have h := run_unquoted p.ordinary p.reads (by simp) hs
  contradiction

/-- Clean parts are read as they are. -/
theorem run_render {ps : List Slot} (h : ∀ p ∈ ps, clean p.content = true) (out : List Token) :
    (render ps).foldlM step (out, .between) = some (out ++ tokens ps, .between) := by
  induction ps generalizing out with
  | nil => simp [render, tokens]
  | cons p ps ih =>
    rw [List.forall_mem_cons] at h
    rw [render, run_append (run_clean h.1 out), run_append (p.run _), ih h.2]
    simp [tokens]

/-- A word that stops the lexer when it stands where a token is expected. -/
def IsName (s : Bytes) : Prop := s ≠ [] ∧ s.all isBare = true ∧ readWord s = none

/-- The parts end, or go on with a name. -/
def Breaks (ps : List Slot) : Prop := ∀ q ∈ ps.head?, IsName q.content

/-- Every part that may hold anything is the last one or has a name behind it. -/
def Guarded : List Slot → Prop
  | [] => True
  | p :: ps => (clean p.content = true ∨ Breaks ps) ∧ Guarded ps

/-- Where a gap is taken for the inside of a string, the next name is taken for a word. -/
theorem astray {ps : List Slot} (hb : Breaks ps) {g : Bytes} (hg : g.all JsonString.ordinary = true)
    {out out' : List Token} {raw : Bytes} {st : State}
    (h : (g ++ render ps).foldlM step (out, .string raw) = some (out', st)) :
    ∃ raw', st = .string raw' := by
  rw [run_append (run_ordinary hg out raw)] at h
  cases ps with
  | nil =>
    obtain ⟨-, rfl⟩ := Prod.mk.inj (Option.some.inj h)
    exact ⟨_, rfl⟩
  | cons q ps =>
    obtain ⟨hne, hbare, hword⟩ := hb q rfl
    rw [render, List.append_assoc, List.append_assoc, List.singleton_append, List.foldlM_cons,
      Option.bind_eq_bind, Option.bind_eq_some_iff] at h
    obtain ⟨c, hstep, h⟩ := h
    rw [step, if_pos rfl, Option.map_eq_some_iff] at hstep
    obtain ⟨s, -, rfl⟩ := hstep
    rw [← List.append_assoc, List.foldlM_append, run_word hne hbare (by decide), hword] at h
    contradiction

/-- Behind any part the lexer is at the gap again, or the template is not read to its end. -/
theorem run_content {ps : List Slot} (hb : Breaks ps) {g : Bytes}
    (hg : g.all JsonString.ordinary = true) {c : Bytes} {out out' : List Token} {st : State}
    (h : ([0x22] ++ c ++ [0x22] ++ (g ++ render ps)).foldlM step (out, .between) = some (out', st))
    (hst : ∀ raw, st ≠ .string raw) :
    ∃ out₁, (g ++ render ps).foldlM step (out₁, .between) = some (out', st) ∧
      ∀ x, .text x ∈ out₁ → .text x ∈ out ∨ clean x = true ∨ x.length < c.length := by
  have hopen : step (out, .between) 0x22 = some (out, .string []) := rfl
  rw [List.append_assoc, List.append_assoc, List.singleton_append, List.foldlM_cons, hopen,
    Option.bind_eq_bind, Option.bind_some, List.foldlM_append, Option.bind_eq_bind,
    Option.bind_eq_some_iff] at h
  obtain ⟨⟨out₁, st₁⟩, hc, h⟩ := h
  obtain ⟨hw, ht⟩ := run_weight hc
  simp only [weight, List.length_nil, Nat.zero_add] at hw ht
  rw [List.singleton_append, List.foldlM_cons, Option.bind_eq_bind, Option.bind_eq_some_iff] at h
  obtain ⟨c₂, hstep, h⟩ := h
  cases st₁ with
  | string raw =>
    rw [step, if_pos rfl, Option.map_eq_some_iff] at hstep
    obtain ⟨s, hs, rfl⟩ := hstep
    refine ⟨_, h, fun x hx => ?_⟩
    rcases List.mem_append.mp hx with hx | hx
    · exact (ht x hx).imp_right Or.inr
    · rw [List.mem_singleton, Token.text.injEq] at hx
      subst hx
      rcases decode_short hs with ⟨hraw, rfl⟩ | hlt
      · exact Or.inr (Or.inl hraw)
      · exact Or.inr (Or.inr (Nat.lt_of_lt_of_le hlt hw))
  -- In every other state the quote opens a string, or goes on with one.
  | between =>
    obtain rfl := Option.some.inj hstep
    obtain ⟨raw, rfl⟩ := astray hb hg h
    exact absurd rfl (hst raw)
  | escaped raw =>
    obtain rfl := Option.some.inj hstep
    obtain ⟨raw, rfl⟩ := astray hb hg h
    exact absurd rfl (hst raw)
  | word w =>
    rw [step, if_neg (by decide), Option.map_eq_some_iff] at hstep
    obtain ⟨t, -, rfl⟩ := hstep
    obtain ⟨raw, rfl⟩ := astray hb hg h
    exact absurd rfl (hst raw)

/-- In a template that is read to its end, a string is clean or shorter than some part
that is not. -/
theorem text_short {ps : List Slot} (hg : Guarded ps) {out out' : List Token} {st : State}
    (h : (render ps).foldlM step (out, .between) = some (out', st)) (hst : ∀ raw, st ≠ .string raw)
    {x : Bytes} (hx : .text x ∈ out') : .text x ∈ out ∨ clean x = true ∨
      ∃ p ∈ ps, clean p.content = false ∧ x.length < p.content.length := by
  induction ps generalizing out with
  | nil =>
    obtain ⟨rfl, -⟩ := Prod.mk.inj (Option.some.inj h)
    exact Or.inl hx
  | cons p ps ih =>
    have behind : ∀ {out₁ : List Token}, (p.gap ++ render ps).foldlM step (out₁, .between) =
        some (out', st) → .text x ∈ out₁ ∨ clean x = true ∨
          ∃ q ∈ p :: ps, clean q.content = false ∧ x.length < q.content.length := by
      intro out₁ h
      rw [run_append (p.run out₁)] at h
      rcases ih hg.2 h with hx | hx | ⟨q, hq, hx⟩
      · rcases List.mem_append.mp hx with hx | hx
        · exact Or.inl hx
        · exact absurd hx (p.textless x)
      · exact Or.inr (Or.inl hx)
      · exact Or.inr (Or.inr ⟨q, List.mem_cons_of_mem p hq, hx⟩)
    rw [render] at h
    cases hc : clean p.content with
    | true =>
      rw [run_append (run_clean hc out)] at h
      rcases behind h with hx | hx
      · rcases List.mem_append.mp hx with hx | hx
        · exact Or.inl hx
        · rw [List.mem_singleton, Token.text.injEq] at hx
          exact Or.inr (Or.inl (hx ▸ hc))
      · exact Or.inr hx
    | false =>
      have hbreaks := hg.1.resolve_left (by simp [hc])
      obtain ⟨out₁, h, hout⟩ := run_content hbreaks p.ordinary h hst
      rcases behind h with hx | hx
      · exact (hout x hx).imp_right (Or.imp_right fun hlt => ⟨p, List.mem_cons_self, hc, hlt⟩)
      · exact Or.inr hx

/-- Some part that is not clean is not among the strings read. -/
theorem part_lost {ps : List Slot} (hg : Guarded ps) {out out' : List Token} {st : State}
    (h : (render ps).foldlM step (out, .between) = some (out', st)) (hst : ∀ raw, st ≠ .string raw)
    (hout : ∀ s, .text s ∉ out) (hu : ∃ p ∈ ps, clean p.content = false) :
    ∃ p ∈ ps, clean p.content = false ∧ .text p.content ∉ out' := by
  let spoilt := ps.filter (fun p => !clean p.content)
  have hmem : ∀ p, p ∈ spoilt ↔ p ∈ ps ∧ clean p.content = false := by
    intro p
    rw [List.mem_filter, Bool.not_eq_true']
  obtain ⟨p₀, hp₀, hc₀⟩ := hu
  -- Among the parts that are not clean, none is longer than this one.
  cases hmax : spoilt.argmax (fun p => p.content.length) with
  | none =>
    rw [List.argmax_eq_none] at hmax
    have := (hmem p₀).mpr ⟨hp₀, hc₀⟩
    rw [hmax] at this
    contradiction
  | some p =>
    obtain ⟨hp, hc⟩ := (hmem p).mp (List.argmax_mem hmax)
    refine ⟨p, hp, hc, fun hx => ?_⟩
    rcases text_short hg h hst hx with hx | hx | ⟨q, hq, hqc, hlt⟩
    · exact hout _ hx
    · rw [hc] at hx
      contradiction
    · have hle := List.le_of_mem_argmax ((hmem q).mpr ⟨hq, hqc⟩) hmax
      exact absurd hlt (Nat.not_lt.mpr hle)

/-- The same of a whole text, behind an opening without strings. -/
theorem lex_part_lost {ps : List Slot} (hg : Guarded ps) {opening : Bytes} {out ts : List Token}
    (ho : opening.foldlM step ([], .between) = some (out, .between)) (hout : ∀ s, .text s ∉ out)
    (h : lex (opening ++ render ps) = some ts) (hu : ∃ p ∈ ps, clean p.content = false) :
    ∃ p ∈ ps, clean p.content = false ∧ .text p.content ∉ ts := by
  rw [lex, run_append ho, Option.bind_eq_some_iff] at h
  obtain ⟨⟨out', st⟩, hrun, hfin⟩ := h
  have hst : ∀ raw, st ≠ .string raw := by
    rintro raw rfl
    contradiction
  obtain ⟨p, hp, hc, hlost⟩ := part_lost hg hrun hst hout hu
  refine ⟨p, hp, hc, fun hmem => hlost ?_⟩
  cases st with
  | between =>
    obtain rfl := Option.some.inj hfin
    exact hmem
  | word w =>
    obtain ⟨t, ht, rfl⟩ := Option.map_eq_some_iff.mp hfin
    rcases List.mem_append.mp hmem with hmem | hmem
    · exact hmem
    · rw [List.mem_singleton] at hmem
      exact absurd (hmem ▸ ht) readWord_text
  | string | escaped => contradiction

/-- Clean parts make one text of their tokens. -/
theorem lex_render {ps : List Slot} (h : ∀ p ∈ ps, clean p.content = true) {opening : Bytes}
    {out : List Token} (ho : opening.foldlM step ([], .between) = some (out, .between)) :
    lex (opening ++ render ps) = some (out ++ tokens ps) := by
  rw [lex, run_append ho, run_render h]
  rfl

theorem render_ordinary {ps : List Slot} (h : ∀ p ∈ ps, clean p.content = true) {b : UInt8}
    (hb : b ∈ render ps) : 0x20 ≤ b := by
  induction ps with
  | nil => contradiction
  | cons p ps ih =>
    rw [List.forall_mem_cons, clean, Bool.and_eq_true] at h
    have hle : ∀ {s : Bytes}, s.all JsonString.ordinary = true → b ∈ s → 0x20 ≤ b := by
      intro s hs hmem
      have := List.all_eq_true.mp hs b hmem
      simp only [JsonString.ordinary, Bool.and_eq_true, decide_eq_true_eq] at this
      exact this.1.1
    simp only [render, List.mem_append, List.mem_singleton] at hb
    rcases hb with ((rfl | hb) | rfl) | hb | hb
    · decide
    · exact hle h.1.2 hb
    · decide
    · exact hle p.ordinary hb
    · exact ih h.2 hb

end CdcPipeline.Library.JsonTemplate
