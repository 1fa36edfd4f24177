import CdcPipeline.Library.Json

namespace CdcPipeline.Library.Json

open Text

/-- The value of one lower-case hexadecimal digit. -/
def hexValue (b : UInt8) : Nat := if b.toNat < 58 then b.toNat - 48 else b.toNat - 87

/-- The byte an escape letter stands for, apart from the `u00` form. -/
def unescape (b : UInt8) : UInt8 :=
  if b = 0x62 then 0x08 else if b = 0x66 then 0x0C else if b = 0x6E then 0x0A
  else if b = 0x72 then 0x0D else if b = 0x74 then 0x09 else b

/-- Reads a string body up to its closing quote. -/
def readString : Bytes → Option (Bytes × Bytes)
  | [] => none
  | 0x22 :: rest => some ([], rest)
  | 0x5C :: 0x75 :: _ :: _ :: x :: y :: rest =>
    (readString rest).map fun (s, r) => ((hexValue x * 16 + hexValue y).toUInt8 :: s, r)
  | 0x5C :: b :: rest => (readString rest).map fun (s, r) => (unescape b :: s, r)
  | b :: rest => (readString rest).map fun (s, r) => (b :: s, r)

def isFloatByte (b : UInt8) : Bool := b = 46 || b = 69 || b = 101

def readNumber (s : Bytes) : Option (Json × Bytes) :=
  let text := s.takeWhile isNumberByte
  let rest := s.dropWhile isNumberByte
  if h : text.all isNumberByte = true ∧ text.any isFloatByte = true then
    some (.float ⟨text, h.1, h.2⟩, rest)
  else (readInt text).map (fun n => (.int n, rest))

def readWord (s : Bytes) : Option (Json × Bytes) :=
  if s.take 4 = bytes "null" then some (.null, s.drop 4)
  else if s.take 4 = bytes "true" then some (.bool true, s.drop 4)
  else if s.take 5 = bytes "false" then some (.bool false, s.drop 5)
  else none

mutual

/-- Reads back the compact text that `dump` writes; one unit of fuel a value. -/
def readValue : Nat → Bytes → Option (Json × Bytes)
  | 0, _ => none
  | _ + 1, [] => none
  | n + 1, b :: s =>
    if b = 0x22 then (readString s).map fun (t, r) => (.str t, r)
    else if b = 0x5B then
      if s.head? = some 0x5D then some (.arr [], s.tail)
      else (readItems n s).map fun (xs, r) => (.arr xs, r)
    else if b = 0x7B then
      if s.head? = some 0x7D then some (.obj [], s.tail)
      else (readMembers n s).map fun (ms, r) => (.obj ms, r)
    else if isNumberByte b then readNumber (b :: s)
    else readWord (b :: s)

def readItems : Nat → Bytes → Option (List Json × Bytes)
  | 0, _ => none
  | n + 1, s => match readValue n s with
    | some (x, 0x5D :: r) => some ([x], r)
    | some (x, 0x2C :: r) => (readItems n r).map fun (xs, r) => (x :: xs, r)
    | _ => none

def readMembers : Nat → Bytes → Option (List (Bytes × Json) × Bytes)
  | 0, _ => none
  | n + 1, s => match readString s.tail with
    | some (k, 0x3A :: r) => match readValue n r with
      | some (v, 0x7D :: r) => some ([(k, v)], r)
      | some (v, 0x2C :: r) => (readMembers n r).map fun (ms, r) => ((k, v) :: ms, r)
      | _ => none
    | _ => none

end

def read (s : Bytes) : Option Json :=
  match readValue s.length s with
  | some (j, []) => some j
  | _ => none

theorem hexValue_hexLower : ∀ n < 16, hexValue (hexLower n) = n := by decide

/-- Reading an escaped byte gives the byte back, whatever follows. -/
theorem readString_escapeByte (b : UInt8) (rest : Bytes) :
    readString (escapeByte b ++ rest) = (readString rest).map fun (s, r) => (b :: s, r) := by
  unfold escapeByte
  split
  · rename_i h; subst h; rfl
  split
  · rename_i h; subst h; rfl
  split
  · rename_i h; subst h; rfl
  split
  · rename_i h; subst h; rfl
  split
  · rename_i h; subst h; rfl
  split
  · rename_i h; subst h; rfl
  split
  · rename_i h; subst h; rfl
  split
  · rename_i hlt
    have hb : b.toNat < 32 := by simpa using UInt8.lt_iff_toNat_lt.mp hlt
    have hx := hexValue_hexLower (b.toNat / 16) (by omega)
    have hy := hexValue_hexLower (b.toNat % 16) (by omega)
    have hsum : (b.toNat / 16 * 16 + b.toNat % 16).toUInt8 = b := by
      rw [Nat.div_add_mod']
      exact UInt8.ofNat_toNat
    simp only [List.cons_append, List.nil_append, readString, hx, hy, hsum]
  · rename_i hq hs _ _ _ _ _ _
    rw [List.singleton_append, readString.eq_5]
    · exact hq
    · intro _ _ _ _ _ h _; exact hs h
    · intro _ _ h _; exact hs h

theorem readString_quoted (s rest : Bytes) :
    readString (s.flatMap escapeByte ++ 0x22 :: rest) = some (s, rest) := by
  induction s with
  | nil => rfl
  | cons b s ih =>
    rw [List.flatMap_cons, List.append_assoc, readString_escapeByte, ih]
    rfl

/-- What may follow a value in the text: nothing that would prolong a number. -/
def Stops (rest : Bytes) : Prop := ∀ b r, rest = b :: r → isNumberByte b = false

theorem stops_cons {b : UInt8} {r : Bytes} (h : isNumberByte b = false) : Stops (b :: r) := by
  intro c t he
  obtain ⟨rfl, -⟩ := List.cons.inj he
  exact h

theorem span_number {t rest : Bytes} (ht : t.all isNumberByte = true) (hr : Stops rest) :
    (t ++ rest).takeWhile isNumberByte = t ∧ (t ++ rest).dropWhile isNumberByte = rest := by
  have hall : ∀ x ∈ t, isNumberByte x = true := by simpa using ht
  rw [List.takeWhile_append_of_pos hall, List.dropWhile_append_of_pos hall]
  cases rest with
  | nil => simp
  | cons b r => simp [hr b r rfl]

theorem digit_number {b : UInt8} (h : isDigit b = true) : isNumberByte b = true := by
  simp [isNumberByte, h]

theorem digit_not_float {b : UInt8} (h : isDigit b = true) : isFloatByte b = false := by
  have hb : 48 ≤ b.toNat ∧ b.toNat ≤ 57 := by
    simpa [isDigit, UInt8.le_iff_toNat_le] using h
  have h1 : b ≠ 46 := by rintro rfl; exact absurd hb (by decide)
  have h2 : b ≠ 69 := by rintro rfl; exact absurd hb (by decide)
  have h3 : b ≠ 101 := by rintro rfl; exact absurd hb (by decide)
  simp [isFloatByte, h1, h2, h3]

theorem natText_bytes (n : Nat) :
    (natText n).all isNumberByte = true ∧ (natText n).any isFloatByte = false := by
  have hd : ∀ b ∈ natText n, isDigit b = true := by simpa using natText_all n
  refine ⟨by simpa using fun b hb => digit_number (hd b hb), ?_⟩
  rw [List.any_eq_false]
  intro b hb
  simp [digit_not_float (hd b hb)]

theorem intText_bytes (n : Int) :
    (intText n).all isNumberByte = true ∧ (intText n).any isFloatByte = false := by
  cases n with
  | ofNat n => exact natText_bytes n
  | negSucc n =>
    obtain ⟨hall, hany⟩ := natText_bytes (n + 1)
    have h45 : isNumberByte 45 = true ∧ isFloatByte 45 = false := by decide
    simp only [intText, List.all_cons, List.any_cons, hall, hany, h45, Bool.and_true,
      Bool.or_false, and_self]

theorem intText_ne_nil (n : Int) : intText n ≠ [] := by
  cases n with
  | ofNat n => exact natText_ne_nil n
  | negSucc n => simp [intText]

theorem readNumber_int (n : Int) {rest : Bytes} (hr : Stops rest) :
    readNumber (intText n ++ rest) = some (.int n, rest) := by
  obtain ⟨hall, hany⟩ := intText_bytes n
  obtain ⟨ht, hd⟩ := span_number hall hr
  simp [readNumber, ht, hd, hany, readInt_intText]

theorem readNumber_float (x : FloatText) {rest : Bytes} (hr : Stops rest) :
    readNumber (x.text ++ rest) = some (.float x, rest) := by
  obtain ⟨ht, hd⟩ := span_number x.chars hr
  have h : x.text.all isNumberByte = true ∧ x.text.any isFloatByte = true := ⟨x.chars, x.isFloat⟩
  simp only [readNumber, ht, hd, h, and_self, dif_pos]

/-- Dispatch on the first byte of a number. -/
theorem readValue_number {n : Nat} {t rest : Bytes} (ht : t.all isNumberByte = true)
    (hne : t ≠ []) : readValue (n + 1) (t ++ rest) = readNumber (t ++ rest) := by
  cases t with
  | nil => exact absurd rfl hne
  | cons b t =>
    have hb : isNumberByte b = true := by
      simp only [List.all_cons, Bool.and_eq_true] at ht; exact ht.1
    have h1 : b ≠ 0x22 := by rintro rfl; exact absurd hb (by decide)
    have h2 : b ≠ 0x5B := by rintro rfl; exact absurd hb (by decide)
    have h3 : b ≠ 0x7B := by rintro rfl; exact absurd hb (by decide)
    simp [readValue, h1, h2, h3, hb]

theorem floatText_ne_nil (x : FloatText) : x.text ≠ [] := by
  intro h
  have := x.isFloat
  simp [h] at this

theorem dumpString_ok {s t : Bytes} (h : dumpString s = .ok t) : t = quoted s := by
  unfold dumpString at h
  split at h
  · exact (Except.ok.inj h).symm
  · cases h

theorem readValue_string (n : Nat) (s rest : Bytes) :
    readValue (n + 1) (quoted s ++ rest) = some (.str s, rest) := by
  simp [quoted, readValue, readString_quoted]

/-- A value's text is not empty, and does not look like the end of an array. -/
theorem dump_head {j : Json} {t : Bytes} (h : j.dump = .ok t) :
    ∃ b r, t = b :: r ∧ b ≠ 0x5D := by
  cases j with
  | null => exact ⟨_, _, (Except.ok.inj h).symm, by decide⟩
  | bool b => cases b <;> exact ⟨_, _, (Except.ok.inj h).symm, by decide⟩
  | int n =>
    obtain rfl := Except.ok.inj h
    obtain ⟨b, r, he⟩ := List.exists_cons_of_ne_nil (intText_ne_nil n)
    have hb := (intText_bytes n).1
    simp only [he, List.all_cons, Bool.and_eq_true] at hb
    exact ⟨b, r, he, by rintro rfl; exact absurd hb.1 (by decide)⟩
  | float x =>
    obtain rfl := Except.ok.inj h
    obtain ⟨b, r, he⟩ := List.exists_cons_of_ne_nil (floatText_ne_nil x)
    have hb := x.chars
    simp only [he, List.all_cons, Bool.and_eq_true] at hb
    exact ⟨b, r, he, by rintro rfl; exact absurd hb.1 (by decide)⟩
  | str s => exact ⟨_, _, dumpString_ok h, by decide⟩
  | arr xs =>
    simp only [dump, bind, Except.bind, pure, Except.pure] at h
    split at h
    · cases h
    · exact ⟨_, _, (Except.ok.inj h).symm, by decide⟩
  | obj ms =>
    simp only [dump, bind, Except.bind, pure, Except.pure] at h
    split at h
    · cases h
    · exact ⟨_, _, (Except.ok.inj h).symm, by decide⟩

theorem dumpItems_head {x : Json} {xs : List Json} {t : Bytes}
    (h : dumpItems (x :: xs) = .ok t) : ∃ b r, t = b :: r ∧ b ≠ 0x5D := by
  cases xs with
  | nil => exact dump_head h
  | cons y ys =>
    simp only [dumpItems, bind_ok, pure_ok] at h
    obtain ⟨head, hx, tail, -, rfl⟩ := h
    obtain ⟨b, r, rfl, hb⟩ := dump_head hx
    exact ⟨b, _, rfl, hb⟩

theorem dumpMembers_head {k : Bytes} {v : Json} {ms : List (Bytes × Json)} {t : Bytes}
    (h : dumpMembers ((k, v) :: ms) = .ok t) : ∃ r, t = 0x22 :: r := by
  cases ms with
  | nil =>
    simp only [dumpMembers, bind_ok, pure_ok] at h
    obtain ⟨key, hk, value, -, rfl⟩ := h
    exact ⟨_, by rw [dumpString_ok hk]; rfl⟩
  | cons m ms =>
    simp only [dumpMembers, bind_ok, pure_ok] at h
    obtain ⟨key, hk, value, -, tail, -, rfl⟩ := h
    exact ⟨_, by rw [dumpString_ok hk]; rfl⟩

theorem stops_close : isNumberByte 0x5D = false ∧ isNumberByte 0x2C = false ∧
    isNumberByte 0x7D = false := by decide

mutual

/-- Reading gives back the document and stops where its text ends. -/
theorem readValue_dump (j : Json) {t : Bytes} (h : j.dump = .ok t) {rest : Bytes}
    (hr : Stops rest) {n : Nat} (hn : t.length ≤ n) :
    readValue n (t ++ rest) = some (j, rest) := by
  obtain ⟨b, r, hb, -⟩ := dump_head h
  obtain ⟨m, rfl⟩ : ∃ m, n = m + 1 := ⟨n - 1, by simp [hb] at hn; omega⟩
  match j with
  | .null => cases h; rfl
  | .bool true => cases h; rfl
  | .bool false => cases h; rfl
  | .int n =>
    cases h
    rw [readValue_number (intText_bytes n).1 (intText_ne_nil n), readNumber_int n hr]
  | .float x =>
    cases h
    rw [readValue_number x.chars (floatText_ne_nil x), readNumber_float x hr]
  | .str s =>
    obtain rfl := dumpString_ok h
    exact readValue_string m s rest
  | .arr [] => cases h; rfl
  | .arr (x :: xs) =>
    simp only [dump, bind_ok, pure_ok] at h
    obtain ⟨body, hbody, rfl⟩ := h
    simp only [List.cons_append, List.length_cons, List.length_append, List.append_assoc,
      List.nil_append] at hn ⊢
    have hitems := readItems_dump x xs hbody rest (n := m) (by simp at hn; omega)
    have hhead : (body ++ 0x5D :: rest).head? ≠ some 0x5D := by
      obtain ⟨c, d, hc, hne⟩ := dumpItems_head hbody
      simp [hc, hne]
    simp only [readValue, if_neg hhead, hitems, Option.map_some, if_pos]
    rfl
  | .obj [] => cases h; rfl
  | .obj ((k, v) :: ms) =>
    simp only [dump, bind_ok, pure_ok] at h
    obtain ⟨body, hbody, rfl⟩ := h
    simp only [List.cons_append, List.length_cons, List.length_append, List.append_assoc,
      List.nil_append] at hn ⊢
    have hmembers := readMembers_dump k v ms hbody rest (n := m) (by simp at hn; omega)
    have hhead : (body ++ 0x7D :: rest).head? ≠ some 0x7D := by
      obtain ⟨d, hc⟩ := dumpMembers_head hbody
      simp [hc]
    simp only [readValue, if_neg hhead, hmembers, Option.map_some, if_pos]
    rfl
termination_by sizeOf j

theorem readItems_dump (x : Json) (xs : List Json) {t : Bytes}
    (h : dumpItems (x :: xs) = .ok t) (rest : Bytes) {n : Nat} (hn : t.length + 1 ≤ n) :
    readItems n (t ++ 0x5D :: rest) = some (x :: xs, rest) := by
  obtain ⟨m, rfl⟩ : ∃ m, n = m + 1 := ⟨n - 1, by omega⟩
  match xs with
  | [] =>
    have hx := readValue_dump x h (stops_cons (r := rest) stops_close.1) (n := m) (by omega)
    simp [readItems, hx]
  | y :: ys =>
    simp only [dumpItems, bind_ok, pure_ok] at h
    obtain ⟨head, hx, tail, hys, rfl⟩ := h
    simp only [List.length_append, List.length_cons] at hn
    have hhead := readValue_dump x hx (stops_cons (r := tail ++ 0x5D :: rest) stops_close.2.1)
      (n := m) (by omega)
    have htail := readItems_dump y ys hys rest (n := m) (by omega)
    simp only [List.append_assoc, List.cons_append, readItems, hhead, htail, Option.map_some]
termination_by sizeOf (x :: xs)

theorem readMembers_dump (k : Bytes) (v : Json) (ms : List (Bytes × Json)) {t : Bytes}
    (h : dumpMembers ((k, v) :: ms) = .ok t) (rest : Bytes) {n : Nat} (hn : t.length + 1 ≤ n) :
    readMembers n (t ++ 0x7D :: rest) = some ((k, v) :: ms, rest) := by
  obtain ⟨m, rfl⟩ : ∃ m, n = m + 1 := ⟨n - 1, by omega⟩
  match ms with
  | [] =>
    simp only [dumpMembers, bind_ok, pure_ok] at h
    obtain ⟨key, hk, value, hv, rfl⟩ := h
    obtain rfl := dumpString_ok hk
    simp only [List.length_append, List.length_cons] at hn
    have hvalue := readValue_dump v hv (stops_cons (r := rest) stops_close.2.2) (n := m) (by omega)
    simp [readMembers, quoted, readString_quoted, hvalue]
  | (k', v') :: ps =>
    simp only [dumpMembers, bind_ok, pure_ok] at h
    obtain ⟨key, hk, value, hv, tail, hps, rfl⟩ := h
    obtain rfl := dumpString_ok hk
    simp only [List.length_append, List.length_cons] at hn
    have hvalue := readValue_dump v hv (stops_cons (r := tail ++ 0x7D :: rest) stops_close.2.1)
      (n := m) (by omega)
    have htail := readMembers_dump k' v' ps hps rest (n := m) (by omega)
    simp [readMembers, quoted, readString_quoted, hvalue, htail]
termination_by sizeOf ((k, v) :: ms)

end

theorem read_dump {j : Json} {t : Bytes} (h : j.dump = .ok t) : read t = some j := by
  have hstops : Stops [] := fun b r he => by cases he
  have hv := readValue_dump j h hstops (Nat.le_refl t.length)
  rw [List.append_nil] at hv
  simp [read, hv]

/-- A text belongs to one document. -/
theorem dump_injective {i j : Json} {t : Bytes} (hi : i.dump = .ok t) (hj : j.dump = .ok t) :
    i = j :=
  Option.some.inj ((read_dump hi).symm.trans (read_dump hj))

end CdcPipeline.Library.Json
