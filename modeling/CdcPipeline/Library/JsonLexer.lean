import CdcPipeline.Library.JsonReader
import CdcPipeline.Library.JsonString

namespace CdcPipeline.Library.JsonLexer

open Text JsonString

inductive Token where
  | beginObject | endObject | beginArray | endArray | comma | colon
  | text (s : Bytes)
  | null
  | bool (b : Bool)
  | int (n : Int)
  | float (x : FloatText)

def isDigits (s : Bytes) : Bool := !s.isEmpty && s.all isDigit

/-- Digits without a zero in front. -/
def isWhole (s : Bytes) : Bool := isDigits s && (s.length == 1 || s.head? != some 48)

def isExponent (s : Bytes) : Bool :=
  match s with
  | [] => true
  | b :: s =>
    (b = 101 || b = 69) && isDigits (if s.head? = some 43 ∨ s.head? = some 45 then s.tail else s)

/-- What follows the whole part of a number. -/
def isFraction (s : Bytes) : Bool :=
  if s.head? = some 46 then
    isDigits (s.tail.takeWhile isDigit) && isExponent (s.tail.dropWhile isDigit)
  else isExponent s

def readNumber (w : Bytes) : Option Token :=
  let magnitude := if w.head? = some 45 then w.tail else w
  let rest := magnitude.dropWhile isDigit
  if isWhole (magnitude.takeWhile isDigit) && isFraction rest then
    if rest = [] then (readInt w).map .int
    else if h : w.all isNumberByte = true ∧ w.any (fun b => b = 46 || b = 69 || b = 101) = true then
      some (.float ⟨w, h.1, h.2⟩)
    else none
  else none

def readWord (w : Bytes) : Option Token :=
  if w = bytes "null" then some .null
  else if w = bytes "true" then some (.bool true)
  else if w = bytes "false" then some (.bool false)
  else readNumber w

inductive State where
  | between
  | string (raw : Bytes)
  | escaped (raw : Bytes)
  | word (w : Bytes)

def isSpace (b : UInt8) : Bool := b = 32 || b = 9 || b = 10 || b = 13

def punctuation (b : UInt8) : Option Token :=
  if b = 0x7B then some .beginObject
  else if b = 0x7D then some .endObject
  else if b = 0x5B then some .beginArray
  else if b = 0x5D then some .endArray
  else if b = 0x2C then some .comma
  else if b = 0x3A then some .colon
  else none

/-- The bytes that go on with a word. -/
def isBare (b : UInt8) : Bool := !isSpace b && b != 0x22 && (punctuation b).isNone

/-- The first byte of a token. -/
def start (out : List Token) (b : UInt8) : List Token × State :=
  if isSpace b then (out, .between)
  else if b = 0x22 then (out, .string [])
  else match punctuation b with
    | some t => (out ++ [t], .between)
    | none => (out, .word [b])

def step : List Token × State → UInt8 → Option (List Token × State)
  | (out, .between), b => some (start out b)
  | (out, .string raw), b =>
    if b = 0x22 then (decode raw).map fun s => (out ++ [.text s], .between)
    else if b = 0x5C then some (out, .escaped (raw ++ [b]))
    else some (out, .string (raw ++ [b]))
  | (out, .escaped raw), b => some (out, .string (raw ++ [b]))
  | (out, .word w), b =>
    if isBare b then some (out, .word (w ++ [b]))
    else (readWord w).map fun t => start (out ++ [t]) b

def finish : List Token × State → Option (List Token)
  | (out, .between) => some out
  | (out, .word w) => (readWord w).map fun t => out ++ [t]
  | (_, .string _) | (_, .escaped _) => none

/-- The tokens of a text; none if a string is not closed or stands for no text, or a word is
neither a number nor a literal. -/
def lex (s : Bytes) : Option (List Token) := (s.foldlM step ([], .between)).bind finish

theorem run_append {c : List Token × State} {s : Bytes} {c' : List Token × State}
    (h : s.foldlM step c = some c') (t : Bytes) : (s ++ t).foldlM step c = t.foldlM step c' := by
  rw [List.foldlM_append, h]
  rfl

theorem start_out (out ts : List Token) (b : UInt8) :
    start (out ++ ts) b = (out ++ (start ts b).1, (start ts b).2) := by
  unfold start
  split_ifs
  · rfl
  · rfl
  · cases punctuation b with
    | none => rfl
    | some t => simp

/-- What has been read stands in front of what is still to come. -/
theorem step_out (out : List Token) (c : List Token × State) (b : UInt8) :
    step (out ++ c.1, c.2) b = (step c b).map fun c' => (out ++ c'.1, c'.2) := by
  obtain ⟨ts, st⟩ := c
  cases st with
  | between => simp [step, start_out]
  | string raw =>
    simp only [step]
    split_ifs
    · cases decode raw <;> simp
    · rfl
    · rfl
  | escaped raw => rfl
  | word w =>
    simp only [step]
    split_ifs
    · rfl
    · cases readWord w with
      | none => rfl
      | some t => simp [List.append_assoc, start_out]

theorem run_out (out : List Token) (c : List Token × State) (s : Bytes) :
    s.foldlM step (out ++ c.1, c.2) = (s.foldlM step c).map fun c' => (out ++ c'.1, c'.2) := by
  induction s generalizing c with
  | nil => rfl
  | cons b s ih =>
    rw [List.foldlM_cons, List.foldlM_cons, step_out]
    cases step c b with
    | none => rfl
    | some c' => exact ih c'

/-- The tokens of a text begin with those of its beginning. -/
theorem lex_out {s t : Bytes} {out ts : List Token}
    (h : s.foldlM step ([], .between) = some (out, .between)) (hl : lex (s ++ t) = some ts) :
    ∃ more, ts = out ++ more := by
  have hrun := run_out out ([], .between) t
  rw [List.append_nil] at hrun
  rw [lex, run_append h, hrun, Option.bind_eq_some_iff] at hl
  obtain ⟨c, hc, hfin⟩ := hl
  obtain ⟨⟨ts', st⟩, -, rfl⟩ := Option.map_eq_some_iff.mp hc
  cases st with
  | between =>
    obtain rfl := Option.some.inj hfin
    exact ⟨ts', rfl⟩
  | word w =>
    obtain ⟨t, -, rfl⟩ := Option.map_eq_some_iff.mp hfin
    exact ⟨ts' ++ [t], List.append_assoc ..⟩
  | string | escaped => contradiction

theorem run_ordinary {s : Bytes} (h : s.all ordinary = true) (out : List Token) (raw : Bytes) :
    s.foldlM step (out, .string raw) = some (out, .string (raw ++ s)) := by
  induction s generalizing raw with
  | nil => simp
  | cons b s ih =>
    simp only [List.all_cons, Bool.and_eq_true, ordinary, bne_iff_ne, ne_eq] at h
    have hstep : step (out, .string raw) b = some (out, .string (raw ++ [b])) := by
      rw [step, if_neg h.1.1.2, if_neg h.1.2]
    have ih := ih h.2 (raw ++ [b])
    rw [List.append_assoc] at ih
    rw [List.foldlM_cons, hstep]
    exact ih

/-- Clean text between quotes is one token. -/
theorem run_clean {s : Bytes} (h : clean s = true) (out : List Token) :
    ([0x22] ++ s ++ [0x22]).foldlM step (out, .between) = some (out ++ [.text s], .between) := by
  have hall : s.all ordinary = true := by
    rw [clean, Bool.and_eq_true] at h
    exact h.2
  have hopen : step (out, .between) 0x22 = some (out, .string []) := rfl
  have hclose : step (out, .string s) 0x22 = some (out ++ [.text s], .between) := by
    rw [step, if_pos rfl, decode_clean h]
    rfl
  rw [List.append_assoc, List.singleton_append, List.foldlM_cons, hopen]
  have hrun := run_append (run_ordinary hall out []) [0x22]
  simpa [hclose] using hrun

theorem run_bare {s : Bytes} (h : s.all isBare = true) (out : List Token) (w : Bytes) :
    s.foldlM step (out, .word w) = some (out, .word (w ++ s)) := by
  induction s generalizing w with
  | nil => simp
  | cons b s ih =>
    rw [List.all_cons, Bool.and_eq_true] at h
    have hstep : step (out, .word w) b = some (out, .word (w ++ [b])) := by
      rw [step, if_pos h.1]
    have ih := ih h.2 (w ++ [b])
    rw [List.append_assoc] at ih
    rw [List.foldlM_cons, hstep]
    exact ih

/-- A word is read when what follows cannot belong to it. -/
theorem run_word {w : Bytes} (hw : w ≠ []) (h : w.all isBare = true) {b : UInt8}
    (hb : isBare b = false) (out : List Token) : (w ++ [b]).foldlM step (out, .between) =
      (readWord w).map fun t => start (out ++ [t]) b := by
  obtain ⟨c, w, rfl⟩ := List.exists_cons_of_ne_nil hw
  rw [List.all_cons, Bool.and_eq_true] at h
  have hstart : step (out, .between) c = some (out, .word [c]) := by
    have hc := h.1
    simp only [isBare, Bool.and_eq_true, Bool.not_eq_true', bne_iff_ne, ne_eq,
      Option.isNone_iff_eq_none] at hc
    rw [step, start, hc.1.1, if_neg (by decide), if_neg hc.1.2, hc.2]
  rw [List.cons_append, List.foldlM_cons, hstart]
  have hrun := run_append (run_bare h.2 out [c]) [b]
  simpa [step, hb] using hrun

theorem natDigits_head {fuel n : Nat} (hn : n ≠ 0) (hf : n < fuel) :
    (natDigits fuel n).head? ≠ some 48 := by
  induction fuel generalizing n with
  | zero => omega
  | succ fuel ih =>
    rw [natDigits]
    split
    · rename_i hlt
      have hdigit : ∀ d < 10, d ≠ 0 → some (digit d) ≠ some 48 := by decide
      exact hdigit n hlt hn
    · have hne := (natDigits_spec fuel (n / 10) (by omega)).2.1
      rw [List.head?_append_of_ne_nil _ hne]
      exact ih (by omega) (by omega)

theorem isWhole_natText (n : Nat) : isWhole (natText n) = true := by
  have hdigits : isDigits (natText n) = true := by
    rw [isDigits, natText_all, Bool.and_true, Bool.not_eq_true', List.isEmpty_eq_false_iff]
    exact natText_ne_nil n
  rw [isWhole, hdigits, Bool.true_and]
  by_cases hn : n = 0
  · subst hn
    rfl
  · have hhead := natDigits_head hn (Nat.lt_succ_self n)
    simp [natText, hhead]

theorem head_natText (n : Nat) : (natText n).head? ≠ some 45 := by
  have hall := natText_all n
  cases hw : natText n with
  | nil => simp
  | cons b s =>
    rw [hw, List.all_cons, Bool.and_eq_true] at hall
    rw [List.head?_cons, ne_eq, Option.some.injEq]
    rintro rfl
    exact absurd hall.1 (by decide)

theorem readNumber_intText (n : Int) : readNumber (intText n) = some (.int n) := by
  have hread := readInt_intText n
  have hfraction : isFraction [] = true := rfl
  cases n with
  | ofNat n =>
    have hall := natText_all n
    rw [intText] at hread ⊢
    simp only [readNumber, if_neg (head_natText n), takeWhile_digits hall, dropWhile_digits hall,
      isWhole_natText, hfraction, Bool.and_true, if_true, hread, Option.map_some]
  | negSucc n =>
    have hall := natText_all (n + 1)
    rw [intText] at hread ⊢
    simp only [readNumber, List.head?_cons, if_true, List.tail_cons, takeWhile_digits hall,
      dropWhile_digits hall, isWhole_natText, hfraction, Bool.and_true, hread, Option.map_some]

theorem readWord_intText (n : Int) : readWord (intText n) = some (.int n) := by
  have hall := (Json.intText_bytes n).1
  have hword : ∀ w : Bytes, w.all isNumberByte = false → intText n ≠ w := by
    rintro w hw rfl
    rw [hw] at hall
    contradiction
  rw [readWord, if_neg (hword _ (by decide)), if_neg (hword _ (by decide)),
    if_neg (hword _ (by decide)), readNumber_intText]

theorem isDigit_spec {b : UInt8} (h : isDigit b = true) : plain b = true ∧ isBare b = true := by
  have hall : ∀ d < 10, plain (digit d) = true ∧ isBare (digit d) = true := by decide
  simp only [isDigit, Bool.and_eq_true, decide_eq_true_eq, UInt8.le_iff_toNat_le,
    UInt8.reduceToNat] at h
  have hb : digit (b.toNat - 48) = b := by
    rw [digit, Nat.add_sub_cancel' h.1]
    exact UInt8.ofNat_toNat
  exact hb ▸ hall (b.toNat - 48) (by omega)

theorem isNumberByte_spec {b : UInt8} (h : isNumberByte b = true) :
    plain b = true ∧ isBare b = true := by
  simp only [isNumberByte, Bool.or_eq_true, decide_eq_true_eq] at h
  rcases h with ((((h | rfl) | rfl) | rfl) | rfl) | rfl
  · exact isDigit_spec h
  all_goals decide

theorem plain_intText (n : Int) : (intText n).all plain = true :=
  all_imp (Json.intText_bytes n).1 fun _ hb => (isNumberByte_spec hb).1

/-- A number is read when what follows cannot belong to it. -/
theorem run_int (n : Int) {b : UInt8} (hb : isBare b = false) (out : List Token) :
    (intText n ++ [b]).foldlM step (out, .between) = some (start (out ++ [.int n]) b) := by
  have hbare : (intText n).all isBare = true :=
    all_imp (Json.intText_bytes n).1 fun c hc => (isNumberByte_spec hc).2
  rw [run_word (Json.intText_ne_nil n) hbare hb, readWord_intText]
  rfl

/-- How much of a string has been read. -/
def weight : State → Nat
  | .string raw | .escaped raw => raw.length
  | .between | .word _ => 0

theorem punctuation_text {b : UInt8} {s : Bytes} : punctuation b ≠ some (.text s) := by
  unfold punctuation
  split_ifs <;> simp

theorem readNumber_text {w s : Bytes} : readNumber w ≠ some (.text s) := by
  unfold readNumber
  intro h
  dsimp only at h
  split_ifs at h <;> simp at h

theorem readWord_text {w s : Bytes} : readWord w ≠ some (.text s) := by
  unfold readWord
  split_ifs
  · simp
  · simp
  · simp
  · exact readNumber_text

theorem start_spec (out : List Token) (b : UInt8) :
    weight (start out b).2 = 0 ∧ ∀ s, .text s ∈ (start out b).1 → .text s ∈ out := by
  unfold start
  split_ifs
  · exact ⟨rfl, fun _ h => h⟩
  · exact ⟨rfl, fun _ h => h⟩
  · cases hp : punctuation b with
    | none => exact ⟨rfl, fun _ h => h⟩
    | some t =>
      refine ⟨rfl, fun s h => ?_⟩
      rcases List.mem_append.mp h with h | h
      · exact h
      · rw [List.mem_singleton] at h
        exact absurd (h ▸ hp) punctuation_text

/-- Text without a quote ends no string that it has not found open. -/
theorem run_unquoted {g : Bytes} (hg : g.all ordinary = true) {out out' : List Token}
    {st st' : State} (h : g.foldlM step (out, st) = some (out', st'))
    (hst : ∀ raw, st ≠ .string raw ∧ st ≠ .escaped raw) {s : Bytes} (hs : .text s ∈ out') :
    .text s ∈ out := by
  induction g generalizing out st with
  | nil =>
    obtain ⟨rfl, -⟩ := Prod.mk.inj (Option.some.inj h)
    exact hs
  | cons b g ih =>
    rw [List.all_cons, Bool.and_eq_true] at hg
    have hb : b ≠ 0x22 := by
      rintro rfl
      exact absurd hg.1 (by decide)
    rw [List.foldlM_cons, Option.bind_eq_bind, Option.bind_eq_some_iff] at h
    obtain ⟨⟨out₁, st₁⟩, hstep, hrest⟩ := h
    have hstart : ∀ ts raw, (start ts b).2 ≠ .string raw ∧ (start ts b).2 ≠ .escaped raw := by
      intro ts raw
      unfold start
      rw [if_neg hb]
      split_ifs
      · simp
      · cases punctuation b <;> simp
    cases st with
    | between =>
      obtain he := Option.some.inj hstep
      have hout := (start_spec out b).2 s
      have hst₁ := hstart out
      rw [he] at hout hst₁
      exact hout (ih hg.2 hrest hst₁)
    | word w =>
      rw [step] at hstep
      split_ifs at hstep
      · obtain ⟨rfl, rfl⟩ := Prod.mk.inj (Option.some.inj hstep)
        exact ih hg.2 hrest (by simp)
      · obtain ⟨t, ht, he⟩ := Option.map_eq_some_iff.mp hstep
        have hout := (start_spec (out ++ [t]) b).2 s
        have hst₁ := hstart (out ++ [t])
        rw [he] at hout hst₁
        rcases List.mem_append.mp (hout (ih hg.2 hrest hst₁)) with hmem | hmem
        · exact hmem
        · rw [List.mem_singleton] at hmem
          exact absurd (hmem ▸ ht) readWord_text
    | string raw => exact absurd rfl (hst raw).1
    | escaped raw => exact absurd rfl (hst raw).2

/-- One byte adds one to what has been read of a string, and a string that it ends is no
longer than that. -/
theorem step_weight {out out' : List Token} {st st' : State} {b : UInt8}
    (h : step (out, st) b = some (out', st')) : weight st' ≤ weight st + 1 ∧
      ∀ s, .text s ∈ out' → .text s ∈ out ∨ s.length ≤ weight st := by
  cases st with
  | between =>
    obtain ⟨hw, ht⟩ := start_spec out b
    rw [step, Option.some.injEq] at h
    rw [h] at hw ht
    exact ⟨hw.symm ▸ Nat.zero_le _, fun s hs => Or.inl (ht s hs)⟩
  | string raw =>
    rw [step] at h
    split_ifs at h
    · obtain ⟨s, hs, he⟩ := Option.map_eq_some_iff.mp h
      obtain ⟨rfl, rfl⟩ := Prod.mk.inj he
      refine ⟨Nat.zero_le _, fun t ht => ?_⟩
      rcases List.mem_append.mp ht with ht | ht
      · exact Or.inl ht
      · rw [List.mem_singleton, Token.text.injEq] at ht
        subst ht
        right
        rcases decode_short hs with ⟨-, rfl⟩ | hlt
        · exact Nat.le_refl _
        · exact Nat.le_of_lt hlt
    all_goals
      obtain ⟨rfl, rfl⟩ := Prod.mk.inj (Option.some.inj h)
      exact ⟨by simp [weight], fun s hs => Or.inl hs⟩
  | escaped raw =>
    obtain ⟨rfl, rfl⟩ := Prod.mk.inj (Option.some.inj h)
    exact ⟨by simp [weight], fun s hs => Or.inl hs⟩
  | word w =>
    rw [step] at h
    split_ifs at h
    · obtain ⟨rfl, rfl⟩ := Prod.mk.inj (Option.some.inj h)
      exact ⟨Nat.zero_le _, fun s hs => Or.inl hs⟩
    · obtain ⟨t, ht, he⟩ := Option.map_eq_some_iff.mp h
      obtain ⟨hw, hs⟩ := start_spec (out ++ [t]) b
      rw [he] at hw hs
      refine ⟨hw.symm ▸ Nat.zero_le _, fun s hmem => ?_⟩
      rcases List.mem_append.mp (hs s hmem) with hmem | hmem
      · exact Or.inl hmem
      · rw [List.mem_singleton] at hmem
        exact absurd (hmem ▸ ht) readWord_text

/-- The strings that end within a text are shorter than it, with what was open before. -/
theorem run_weight {s : Bytes} {out out' : List Token} {st st' : State}
    (h : s.foldlM step (out, st) = some (out', st')) : weight st' ≤ weight st + s.length ∧
      ∀ x, .text x ∈ out' → .text x ∈ out ∨ x.length < weight st + s.length := by
  induction s generalizing out st with
  | nil =>
    obtain ⟨rfl, rfl⟩ := Prod.mk.inj (Option.some.inj h)
    exact ⟨Nat.le_refl _, fun x hx => Or.inl hx⟩
  | cons b s ih =>
    rw [List.foldlM_cons, Option.bind_eq_bind, Option.bind_eq_some_iff] at h
    obtain ⟨⟨out₁, st₁⟩, hstep, hrest⟩ := h
    obtain ⟨hw, ht⟩ := step_weight hstep
    obtain ⟨hw', ht'⟩ := ih hrest
    rw [List.length_cons]
    refine ⟨by omega, fun x hx => ?_⟩
    rcases ht' x hx with hx | hlt
    · rcases ht x hx with hx | hle
      · exact Or.inl hx
      · right
        omega
    · right
      omega

end CdcPipeline.Library.JsonLexer
