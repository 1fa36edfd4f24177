import CdcPipeline.Library.Text
import Mathlib.Tactic.SplitIfs

namespace CdcPipeline.Library

open Text

namespace Utf8

/-- Where the decoder stands between bytes: how many continuation bytes are owed,
or which range the next one is confined to. -/
inductive State where
  | accept | tail1 | tail2 | tail3 | afterE0 | afterED | afterF0 | afterF4
deriving DecidableEq

def within (lo hi b : UInt8) (next : State) : Option State :=
  if lo ≤ b ∧ b ≤ hi then some next else none

def first (b : UInt8) : Option State :=
  if b ≤ 0x7F then some .accept
  else if 0xC2 ≤ b ∧ b ≤ 0xDF then some .tail1
  else if b = 0xE0 then some .afterE0
  else if b = 0xED then some .afterED
  else if 0xE1 ≤ b ∧ b ≤ 0xEF then some .tail2
  else if b = 0xF0 then some .afterF0
  else if 0xF1 ≤ b ∧ b ≤ 0xF3 then some .tail3
  else if b = 0xF4 then some .afterF4
  else none

def step : State → UInt8 → Option State
  | .accept, b => first b
  | .tail1, b => within 0x80 0xBF b .accept
  | .tail2, b => within 0x80 0xBF b .tail1
  | .tail3, b => within 0x80 0xBF b .tail2
  | .afterE0, b => within 0xA0 0xBF b .tail1
  | .afterED, b => within 0x80 0x9F b .tail1
  | .afterF0, b => within 0x90 0xBF b .tail2
  | .afterF4, b => within 0x80 0x8F b .tail2

inductive Error where
  | invalid (index : Nat) (byte : UInt8)
  | incomplete (last : UInt8)
deriving DecidableEq

/-- The first byte that rules the text out, or the last one if a character is unfinished. -/
def scan : State → Nat → UInt8 → Bytes → Option Error
  | st, _, last, [] => if st = .accept then none else some (.incomplete last)
  | st, i, _, b :: s => match step st b with
    | some st' => scan st' (i + 1) b s
    | none => some (.invalid i b)

def error (s : Bytes) : Option Error := scan .accept 0 0 s

def valid (s : Bytes) : Bool := (error s).isNone

end Utf8

def isNumberByte (b : UInt8) : Bool := isDigit b || b = 43 || b = 45 || b = 46 || b = 69 || b = 101

/-- A floating-point number as `dump()` prints it: the shortest decimal that reads
back as the same double, marked as a float by its point or its exponent. -/
structure FloatText where
  text : Bytes
  chars : text.all isNumberByte = true
  isFloat : text.any (fun b => b = 46 || b = 69 || b = 101) = true

inductive Json where
  | null
  | bool (b : Bool)
  | int (n : Int)
  | float (x : FloatText)
  | str (s : Bytes)
  | arr (xs : List Json)
  | obj (ms : List (Bytes × Json))

namespace Json

def isNull : Json → Bool
  | .null => true
  | _ => false

def isObject : Json → Bool
  | .obj _ => true
  | _ => false

def isString : Json → Bool
  | .str _ => true
  | _ => false

/-- The member of an object, as `contains` and `operator[]` see it. -/
def member (j : Json) (k : Bytes) : Option Json :=
  match j with
  | .obj ms => ms.lookup k
  | _ => none

def contains (j : Json) (k : Bytes) : Bool := (j.member k).isSome

/-- `contains(k) && !is_null()`. -/
def nonNull (j : Json) (k : Bytes) : Option Json := (j.member k).filter (fun v => !v.isNull)

def typeName : Json → Bytes
  | .null => bytes "null"
  | .bool _ => bytes "boolean"
  | .int _ | .float _ => bytes "number"
  | .str _ => bytes "string"
  | .arr _ => bytes "array"
  | .obj _ => bytes "object"

/-- `at(k)` -/
def at_ (j : Json) (k : Bytes) : Except Bytes Json :=
  match j with
  | .obj ms => match ms.lookup k with
    | some v => .ok v
    | none => .error (bytes "[json.exception.out_of_range.403] key '" ++ k ++ bytes "' not found")
  | j => .error (bytes "[json.exception.type_error.304] cannot use at() with " ++ j.typeName)

/-- The map's `operator[]`: the member is replaced, or inserted where its key belongs. -/
def insertMember (k : Bytes) (v : Json) : List (Bytes × Json) → List (Bytes × Json)
  | [] => [(k, v)]
  | (k', v') :: ms =>
    if k = k' then (k, v) :: ms
    else if k < k' then (k, v) :: (k', v') :: ms
    else (k', v') :: insertMember k v ms

/-- `j[k] = v` -/
def assign (j : Json) (k : Bytes) (v : Json) : Except Bytes Json :=
  match j with
  | .obj ms => .ok (.obj (insertMember k v ms))
  | .null => .ok (.obj [(k, v)])
  | j => .error
      (bytes "[json.exception.type_error.305] cannot use operator[] with a string argument with " ++
        j.typeName)

def hexDigit (n : Nat) : UInt8 := if n < 10 then (48 + n).toUInt8 else (55 + n).toUInt8

def hexLower (n : Nat) : UInt8 := if n < 10 then (48 + n).toUInt8 else (87 + n).toUInt8

def escapeByte (b : UInt8) : Bytes :=
  if b = 0x22 then [0x5C, 0x22]
  else if b = 0x5C then [0x5C, 0x5C]
  else if b = 0x08 then [0x5C, 0x62]
  else if b = 0x0C then [0x5C, 0x66]
  else if b = 0x0A then [0x5C, 0x6E]
  else if b = 0x0D then [0x5C, 0x72]
  else if b = 0x09 then [0x5C, 0x74]
  else if b < 0x20 then
    [0x5C, 0x75, 0x30, 0x30, hexLower (b.toNat / 16), hexLower (b.toNat % 16)]
  else [b]

/-- The text of `type_error.316`. -/
def utf8ErrorText : Utf8.Error → Bytes
  | .invalid i b => bytes "[json.exception.type_error.316] invalid UTF-8 byte at index " ++
      natText i ++ bytes ": 0x" ++ [hexDigit (b.toNat / 16), hexDigit (b.toNat % 16)]
  | .incomplete b => bytes "[json.exception.type_error.316] incomplete UTF-8 string; last byte: 0x"
      ++ [hexDigit (b.toNat / 16), hexDigit (b.toNat % 16)]

def quoted (s : Bytes) : Bytes := 0x22 :: s.flatMap escapeByte ++ [0x22]

def dumpString (s : Bytes) : Except Bytes Bytes :=
  match Utf8.error s with
  | none => .ok (quoted s)
  | some e => .error (utf8ErrorText e)

mutual

/-- `dump()` with its default arguments: no blanks, and an exception for a string
that is not UTF-8. Objects list their members in key order, as the map keeps them. -/
def dump : Json → Except Bytes Bytes
  | .null => .ok (bytes "null")
  | .bool true => .ok (bytes "true")
  | .bool false => .ok (bytes "false")
  | .int n => .ok (intText n)
  | .float x => .ok x.text
  | .str s => dumpString s
  | .arr xs => do
    let body ← dumpItems xs
    return 0x5B :: body ++ [0x5D]
  | .obj ms => do
    let body ← dumpMembers ms
    return 0x7B :: body ++ [0x7D]

def dumpItems : List Json → Except Bytes Bytes
  | [] => .ok []
  | [x] => x.dump
  | x :: y :: xs => do
    let head ← x.dump
    let rest ← dumpItems (y :: xs)
    return head ++ 0x2C :: rest

def dumpMembers : List (Bytes × Json) → Except Bytes Bytes
  | [] => .ok []
  | [(k, v)] => do
    let key ← dumpString k
    let value ← v.dump
    return key ++ 0x3A :: value
  | (k, v) :: m :: ms => do
    let key ← dumpString k
    let value ← v.dump
    let rest ← dumpMembers (m :: ms)
    return key ++ 0x3A :: value ++ 0x2C :: rest

end

mutual

/-- Every string in the document is UTF-8, as in everything a parser returns. -/
def utf8 : Json → Bool
  | .null | .bool _ | .int _ | .float _ => true
  | .str s => Utf8.valid s
  | .arr xs => utf8Items xs
  | .obj ms => utf8Members ms

def utf8Items : List Json → Bool
  | [] => true
  | x :: xs => x.utf8 && utf8Items xs

def utf8Members : List (Bytes × Json) → Bool
  | [] => true
  | (k, v) :: ms => Utf8.valid k && v.utf8 && utf8Members ms

end

mutual

/-- The byte stands in one of the document's strings or keys. -/
def mentions (b : UInt8) : Json → Bool
  | .null | .bool _ | .int _ | .float _ => false
  | .str s => s.contains b
  | .arr xs => mentionsItems b xs
  | .obj ms => mentionsMembers b ms

def mentionsItems (b : UInt8) : List Json → Bool
  | [] => false
  | x :: xs => x.mentions b || mentionsItems b xs

def mentionsMembers (b : UInt8) : List (Bytes × Json) → Bool
  | [] => false
  | (k, v) :: ms => k.contains b || v.mentions b || mentionsMembers b ms

end

theorem bind_ok {ε α β : Type} {x : Except ε α} {f : α → Except ε β} {b : β} :
    (x >>= f) = .ok b ↔ ∃ a, x = .ok a ∧ f a = .ok b := by
  cases x with
  | error e =>
    constructor
    · intro h; cases h
    · rintro ⟨a, h, -⟩; cases h
  | ok a =>
    constructor
    · intro h; exact ⟨a, rfl, h⟩
    · rintro ⟨c, h, hf⟩; cases h; exact hf

theorem pure_ok {ε α : Type} {a b : α} : (pure a : Except ε α) = .ok b ↔ a = b :=
  ⟨Except.ok.inj, congrArg Except.ok⟩

theorem dumpString_ok_iff (s : Bytes) : (∃ t, dumpString s = .ok t) ↔ Utf8.valid s = true := by
  unfold dumpString Utf8.valid
  cases Utf8.error s <;> simp

mutual

theorem dump_ok_iff (j : Json) : (∃ t, j.dump = .ok t) ↔ j.utf8 = true := by
  match j with
  | .null | .bool true | .bool false | .int _ | .float _ => simp [dump, utf8]
  | .str s => exact dumpString_ok_iff s
  | .arr xs =>
    simp only [dump, utf8, bind_ok, pure_ok, ← dumpItems_ok_iff xs]
    exact ⟨fun ⟨_, a, ha, _⟩ => ⟨a, ha⟩, fun ⟨a, ha⟩ => ⟨_, a, ha, rfl⟩⟩
  | .obj ms =>
    simp only [dump, utf8, bind_ok, pure_ok, ← dumpMembers_ok_iff ms]
    exact ⟨fun ⟨_, a, ha, _⟩ => ⟨a, ha⟩, fun ⟨a, ha⟩ => ⟨_, a, ha, rfl⟩⟩

theorem dumpItems_ok_iff (xs : List Json) :
    (∃ t, dumpItems xs = .ok t) ↔ utf8Items xs = true := by
  match xs with
  | [] => simp [dumpItems, utf8Items]
  | [x] => simpa [dumpItems, utf8Items] using dump_ok_iff x
  | x :: y :: ys =>
    rw [utf8Items, Bool.and_eq_true, ← dump_ok_iff x, ← dumpItems_ok_iff (y :: ys)]
    simp only [dumpItems, bind_ok, pure_ok]
    exact ⟨fun ⟨_, a, ha, b, hb, _⟩ => ⟨⟨a, ha⟩, b, hb⟩,
      fun ⟨⟨a, ha⟩, b, hb⟩ => ⟨_, a, ha, b, hb, rfl⟩⟩

theorem dumpMembers_ok_iff (ms : List (Bytes × Json)) :
    (∃ t, dumpMembers ms = .ok t) ↔ utf8Members ms = true := by
  match ms with
  | [] => simp [dumpMembers, utf8Members]
  | [(k, v)] =>
    rw [utf8Members, utf8Members, Bool.and_true, Bool.and_eq_true, ← dumpString_ok_iff k,
      ← dump_ok_iff v]
    simp only [dumpMembers, bind_ok, pure_ok]
    exact ⟨fun ⟨_, a, ha, b, hb, _⟩ => ⟨⟨a, ha⟩, b, hb⟩,
      fun ⟨⟨a, ha⟩, b, hb⟩ => ⟨_, a, ha, b, hb, rfl⟩⟩
  | (k, v) :: m :: ms =>
    rw [utf8Members, Bool.and_eq_true, Bool.and_eq_true, ← dumpString_ok_iff k,
      ← dump_ok_iff v, ← dumpMembers_ok_iff (m :: ms)]
    simp only [dumpMembers, bind_ok, pure_ok]
    exact ⟨fun ⟨_, a, ha, b, hb, c, hc, _⟩ => ⟨⟨⟨a, ha⟩, b, hb⟩, c, hc⟩,
      fun ⟨⟨⟨a, ha⟩, b, hb⟩, c, hc⟩ => ⟨_, a, ha, b, hb, c, hc, rfl⟩⟩

end

theorem utf8Members_lookup {ms : List (Bytes × Json)} {k : Bytes} {v : Json}
    (h : utf8Members ms = true) (hv : ms.lookup k = some v) : v.utf8 = true := by
  induction ms with
  | nil => simp at hv
  | cons m ms ih =>
    obtain ⟨k', v'⟩ := m
    simp only [utf8Members, Bool.and_eq_true] at h
    rw [List.lookup_cons] at hv
    split at hv
    · obtain rfl := Option.some.inj hv
      exact h.1.2
    · exact ih h.2 hv

/-- An assignment is seen at its own key, and nowhere else. -/
theorem lookup_insertMember (k : Bytes) (v : Json) (ms : List (Bytes × Json)) (k' : Bytes) :
    (insertMember k v ms).lookup k' = if k' = k then some v else ms.lookup k' := by
  induction ms with
  | nil => by_cases h : k' = k <;> simp [insertMember, h]
  | cons m ms ih =>
    obtain ⟨k₁, v₁⟩ := m
    unfold insertMember
    by_cases h : k' = k
    · subst h
      by_cases h₁ : k' = k₁
      · simp [h₁]
      · rw [if_neg h₁, if_pos rfl]
        split
        · simp
        · rw [List.lookup_cons, beq_false_of_ne h₁, ih]
          simp
    · rw [if_neg h]
      rw [if_neg h] at ih
      split_ifs with h₁ h₂
      · rw [List.lookup_cons, List.lookup_cons, beq_false_of_ne h, beq_false_of_ne (h₁ ▸ h)]
      · rw [List.lookup_cons, beq_false_of_ne h]
      · rw [List.lookup_cons, List.lookup_cons, ih]

/-- What can be assigned to is an object, and shows what was assigned. -/
theorem assign_ok {j : Json} {k : Bytes} {v doc : Json} (h : j.assign k v = .ok doc) :
    ∃ ms, doc = .obj ms ∧ ms.lookup k = some v := by
  cases j with
  | obj ms =>
    obtain rfl := Except.ok.inj h
    exact ⟨_, rfl, by rw [lookup_insertMember, if_pos rfl]⟩
  | null =>
    obtain rfl := Except.ok.inj h
    exact ⟨_, rfl, by simp⟩
  | _ => cases h

theorem utf8Members_insertMember {ms : List (Bytes × Json)} {k : Bytes} {v : Json}
    (h : utf8Members ms = true) (hk : Utf8.valid k = true) (hv : v.utf8 = true) :
    utf8Members (insertMember k v ms) = true := by
  induction ms with
  | nil => simp [insertMember, utf8Members, hk, hv]
  | cons m ms ih =>
    obtain ⟨k', v'⟩ := m
    have hm := h
    simp only [utf8Members, Bool.and_eq_true] at hm
    unfold insertMember
    split_ifs
    · simp [utf8Members, hk, hv, hm.2]
    · rw [utf8Members, hk, hv, h]
      rfl
    · simp [utf8Members, hm.1.1, hm.1.2, ih hm.2]

theorem nonNull_some {j v : Json} {k : Bytes} (h : j.nonNull k = some v) :
    j.member k = some v ∧ v.isNull = false := by
  obtain ⟨hm, hn⟩ := Option.filter_eq_some_iff.mp h
  exact ⟨hm, by simpa using hn⟩

theorem utf8_nonNull {j v : Json} {k : Bytes} (h : j.utf8 = true) (hv : j.nonNull k = some v) :
    v.utf8 = true := by
  have hm := (nonNull_some hv).1
  cases j with
  | obj ms => exact utf8Members_lookup h hm
  | _ => simp [member] at hm

end Json

end CdcPipeline.Library
