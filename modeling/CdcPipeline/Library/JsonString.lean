import CdcPipeline.Library.Json

namespace CdcPipeline.Library.JsonString

open Text

def hexValue (b : UInt8) : Option Nat :=
  if 48 ≤ b ∧ b ≤ 57 then some (b.toNat - 48)
  else if 65 ≤ b ∧ b ≤ 70 then some (b.toNat - 55)
  else if 97 ≤ b ∧ b ≤ 102 then some (b.toNat - 87)
  else none

/-- The four digits of a `\u` escape. -/
def codeUnit (a b c d : UInt8) : Option Nat := do
  let a ← hexValue a
  let b ← hexValue b
  let c ← hexValue c
  let d ← hexValue d
  return ((a * 16 + b) * 16 + c) * 16 + d

def utf8Encode (u : Nat) : Bytes :=
  if u < 0x80 then [u.toUInt8]
  else if u < 0x800 then [(0xC0 + u / 64).toUInt8, (0x80 + u % 64).toUInt8]
  else if u < 0x10000 then
    [(0xE0 + u / 4096).toUInt8, (0x80 + u / 64 % 64).toUInt8, (0x80 + u % 64).toUInt8]
  else
    [(0xF0 + u / 262144).toUInt8, (0x80 + u / 4096 % 64).toUInt8, (0x80 + u / 64 % 64).toUInt8,
      (0x80 + u % 64).toUInt8]

/-- What a code unit adds to the text, and the high surrogate it may leave to be completed.
A surrogate without its partner stands for no text. -/
def join (high : Option Nat) (u : Nat) : Option (Bytes × Option Nat) :=
  match high with
  | none =>
    if 0xD800 ≤ u ∧ u < 0xDC00 then some ([], some u)
    else if 0xDC00 ≤ u ∧ u < 0xE000 then none
    else some (utf8Encode u, none)
  | some h =>
    if 0xDC00 ≤ u ∧ u < 0xE000 then
      some (utf8Encode (0x10000 + (h - 0xD800) * 0x400 + (u - 0xDC00)), none)
    else none

def escapeLetter (b : UInt8) : Option UInt8 :=
  if b = 0x22 ∨ b = 0x5C ∨ b = 0x2F then some b
  else if b = 0x62 then some 0x08
  else if b = 0x66 then some 0x0C
  else if b = 0x6E then some 0x0A
  else if b = 0x72 then some 0x0D
  else if b = 0x74 then some 0x09
  else none

/-- The bytes that stand for themselves between quotes. -/
def ordinary (b : UInt8) : Bool := 0x20 ≤ b && b != 0x22 && b != 0x5C

/-- What the text between two quotes stands for. -/
def unescape : Option Nat → Bytes → Option Bytes
  | high, [] => if high = none then some [] else none
  | high, 0x5C :: 0x75 :: a :: b :: c :: d :: s => do
    let u ← codeUnit a b c d
    let (out, high) ← join high u
    let rest ← unescape high s
    return out ++ rest
  | high, 0x5C :: b :: s =>
    if high = none then do
      let c ← escapeLetter b
      let rest ← unescape none s
      return c :: rest
    else none
  | high, b :: s =>
    if high = none ∧ ordinary b = true then (unescape none s).map (b :: ·) else none

/-- A string's text, if what stands between its quotes is UTF-8 and well escaped. -/
def decode (raw : Bytes) : Option Bytes := if Utf8.valid raw then unescape none raw else none

/-- Text that may be put between quotes as it is. -/
def clean (s : Bytes) : Bool := Utf8.valid s && s.all ordinary

theorem unescape_ordinary {s : Bytes} (h : s.all ordinary = true) : unescape none s = some s := by
  induction s with
  | nil => rfl
  | cons b s ih =>
    rw [List.all_cons, Bool.and_eq_true] at h
    have hb : b ≠ 0x5C := by
      rintro rfl
      exact absurd h.1 (by decide)
    rw [unescape, if_pos ⟨rfl, h.1⟩, ih h.2]
    · rfl
    · intro a b' c d s' he
      exact absurd he hb
    · intro b' s' he
      exact absurd he hb

theorem decode_clean {s : Bytes} (h : clean s = true) : decode s = some s := by
  rw [clean, Bool.and_eq_true] at h
  rw [decode, if_pos h.1, unescape_ordinary h.2]

/-- The text is UTF-8 if the decoder is between characters again at its end. -/
theorem valid_iff (s : Bytes) :
    Utf8.valid s = true ↔ s.foldlM Utf8.step .accept = some .accept := by
  have hscan : ∀ (s : Bytes) (st : Utf8.State) (i : Nat) (last : UInt8),
      Utf8.scan st i last s = none ↔ s.foldlM Utf8.step st = some .accept := by
    intro s
    induction s with
    | nil =>
      intro st i last
      simp [Utf8.scan]
    | cons b s ih =>
      intro st i last
      rw [Utf8.scan, List.foldlM_cons]
      cases Utf8.step st b with
      | none => simp
      | some st' => exact ih st' (i + 1) b
  rw [Utf8.valid, Option.isNone_iff_eq_none, Utf8.error, hscan]

/-- A byte of ASCII is a character of its own. -/
theorem utf8_step_ascii {b : UInt8} (h : b < 0x80) (st : Utf8.State) :
    Utf8.step st b = if st = .accept then some .accept else none := by
  have hb : b.toNat < 128 := UInt8.lt_iff_toNat_lt.mp h
  have outside : ∀ {lo hi : UInt8} {next : Utf8.State}, 128 ≤ lo.toNat →
      Utf8.within lo hi b next = none := by
    intro lo hi next hlo
    refine if_neg fun hin => ?_
    have hle : lo.toNat ≤ b.toNat := UInt8.le_iff_toNat_le.mp hin.1
    omega
  cases st with
  | accept => exact if_pos (UInt8.le_iff_toNat_le.mpr (Nat.le_of_lt_succ hb))
  | _ => exact outside (by decide)

theorem valid_append {s t : Bytes} {b : UInt8} (h : b < 0x80) :
    Utf8.valid (s ++ b :: t) = (Utf8.valid s && Utf8.valid t) := by
  rw [Bool.eq_iff_iff, Bool.and_eq_true, valid_iff, valid_iff, valid_iff, List.foldlM_append]
  cases hs : s.foldlM Utf8.step .accept with
  | none => simp
  | some st =>
    simp only [Option.bind_eq_bind, Option.bind_some, List.foldlM_cons, utf8_step_ascii h]
    by_cases hst : st = .accept
    · simp [hst]
    · simp [hst]

/-- The bytes of ASCII that are ordinary. -/
def plain (b : UInt8) : Bool := ordinary b && b < 0x80

theorem plain_ordinary {s : Bytes} (h : s.all plain = true) : s.all ordinary = true :=
  all_imp h fun _ hb => (Bool.and_eq_true_iff.mp hb).1

theorem clean_cons {b : UInt8} (h : plain b = true) (s : Bytes) : clean (b :: s) = clean s := by
  simp only [plain, Bool.and_eq_true, decide_eq_true_eq] at h
  have hv := valid_append (s := []) (t := s) h.2
  rw [List.nil_append] at hv
  rw [clean, clean, hv, List.all_cons, h.1]
  rfl

/-- Behind a plain byte another text starts. -/
theorem clean_append {b : UInt8} (h : plain b = true) (s t : Bytes) :
    clean (s ++ b :: t) = (clean s && clean (b :: t)) := by
  rw [clean_cons h]
  simp only [plain, Bool.and_eq_true, decide_eq_true_eq] at h
  simp only [clean, valid_append h.2, List.all_append, List.all_cons, h.1, Bool.true_and]
  ac_rfl

theorem clean_plain_append {s : Bytes} (h : s.all plain = true) (t : Bytes) :
    clean (s ++ t) = clean t := by
  induction s with
  | nil => rfl
  | cons b s ih =>
    rw [List.all_cons, Bool.and_eq_true] at h
    rw [List.cons_append, clean_cons h.1, ih h.2]

theorem clean_plain {s : Bytes} (h : s.all plain = true) : clean s = true := by
  have hs := clean_plain_append h []
  rw [List.append_nil] at hs
  exact hs

theorem utf8Encode_length (u : Nat) : (utf8Encode u).length ≤ 4 := by
  unfold utf8Encode
  split
  · simp
  · split
    · simp
    · split <;> simp

theorem join_length {high high' : Option Nat} {u : Nat} {out : Bytes}
    (h : join high u = some (out, high')) : out.length ≤ 4 := by
  unfold join at h
  cases high with
  | none =>
    dsimp only at h
    split_ifs at h
    · obtain ⟨rfl, -⟩ := Prod.mk.inj (Option.some.inj h)
      simp
    · obtain ⟨rfl, -⟩ := Prod.mk.inj (Option.some.inj h)
      exact utf8Encode_length u
  | some hi =>
    dsimp only at h
    split_ifs at h
    obtain ⟨rfl, -⟩ := Prod.mk.inj (Option.some.inj h)
    exact utf8Encode_length _

/-- An escape is longer than what it stands for. -/
theorem unescape_short {high : Option Nat} {s t : Bytes} (h : unescape high s = some t) :
    s.all ordinary = true ∧ t = s ∨ t.length < s.length := by
  have weaken : ∀ {s t : Bytes}, s.all ordinary = true ∧ t = s ∨ t.length < s.length →
      t.length ≤ s.length := by
    rintro s t (⟨-, rfl⟩ | h)
    · exact Nat.le_refl _
    · exact Nat.le_of_lt h
  fun_induction unescape high s generalizing t with
  | case1 =>
    obtain rfl := Option.some.inj h
    exact Or.inl ⟨rfl, rfl⟩
  | case2 => contradiction
  | case3 high a b c d s ih =>
    simp only [Option.bind_eq_bind, Option.bind_eq_some_iff, Option.pure_def,
      Option.some.injEq] at h
    obtain ⟨u, -, ⟨out, high'⟩, hjoin, rest, hrest, rfl⟩ := h
    have hout := join_length hjoin
    have hle := weaken (ih high' hrest)
    right
    simp only [List.length_append, List.length_cons]
    omega
  | case4 b s hb ih =>
    simp only [Option.bind_eq_bind, Option.bind_eq_some_iff, Option.pure_def,
      Option.some.injEq] at h
    obtain ⟨c, -, rest, hrest, rfl⟩ := h
    have hle := weaken (ih hrest)
    right
    simp only [List.length_cons]
    omega
  | case5 => contradiction
  | case6 high b s hu he hb ih =>
    obtain ⟨rest, hrest, rfl⟩ := Option.map_eq_some_iff.mp h
    rcases ih hrest with ⟨hall, rfl⟩ | hlt
    · exact Or.inl ⟨by rw [List.all_cons, hb.2, hall]; rfl, rfl⟩
    · exact Or.inr (Nat.succ_lt_succ hlt)
  | case7 => contradiction

/-- A string stands for less than what is between its quotes, unless that is clean. -/
theorem decode_short {raw s : Bytes} (h : decode raw = some s) :
    clean raw = true ∧ s = raw ∨ s.length < raw.length := by
  unfold decode at h
  split_ifs at h with hv
  rcases unescape_short h with ⟨hall, rfl⟩ | hlt
  · exact Or.inl ⟨by rw [clean, hv, hall]; rfl, rfl⟩
  · exact Or.inr hlt

end CdcPipeline.Library.JsonString
