import Mathlib.Data.List.TakeWhile
import Mathlib.Data.Rat.Floor
import Mathlib.Tactic.NormNum

namespace CdcPipeline.Library.Text

/-- A string of bytes, without any encoding promised. -/
abbrev Bytes := List UInt8

/-- An ASCII literal. -/
def bytes (s : String) : Bytes := s.toList.map (fun c => c.toNat.toUInt8)

/-- A test of every byte of a text. -/
theorem forall_bytes {s : Bytes} {P : UInt8 → Prop} [DecidablePred P]
    (h : s.all (fun c => decide (P c)) = true) : ∀ c ∈ s, P c :=
  fun c hc => of_decide_eq_true (List.all_eq_true.mp h c hc)

/-- A test that implies another one. -/
theorem all_imp {s : Bytes} {p q : UInt8 → Bool} (h : s.all p = true)
    (hpq : ∀ b, p b = true → q b = true) : s.all q = true := by
  rw [List.all_eq_true] at h ⊢
  exact fun b hb => hpq b (h b hb)

/-- What a reader that stops at the first NUL sees. -/
def cString (s : Bytes) : Bytes := s.takeWhile (fun b => b != 0)

theorem cString_eq {s : Bytes} (h : 0 ∉ s) : cString s = s := by
  rw [cString, List.takeWhile_eq_self_iff]
  intro b hb
  rw [bne_iff_ne]
  rintro rfl
  exact h hb

theorem cString_append {p : Bytes} (h : 0 ∉ p) (s : Bytes) : cString (p ++ s) = p ++ cString s := by
  have hp : ∀ b ∈ p, (b != 0) = true := by
    intro b hb
    rw [bne_iff_ne]
    rintro rfl
    exact h hb
  exact List.takeWhile_append_of_pos hp

theorem cString_cut {s : Bytes} (h : 0 ∈ s) (t : Bytes) : cString (s ++ t) = cString s := by
  induction s with
  | nil => contradiction
  | cons b s ih =>
    by_cases hb : b = 0
    · simp [cString, hb]
    · have hs := (List.mem_cons.mp h).resolve_left (fun he => hb he.symm)
      simpa [cString, hb] using ih hs

theorem noNul_cString (s : Bytes) : 0 ∉ cString s := by
  intro h
  have h0 := List.mem_takeWhile_imp h
  contradiction

def isDigit (b : UInt8) : Bool := 48 ≤ b && b ≤ 57

def digit (d : Nat) : UInt8 := (48 + d).toUInt8

def digitValue (b : UInt8) : Nat := b.toNat - 48

theorem digit_spec : ∀ d < 10, isDigit (digit d) = true ∧ digitValue (digit d) = d := by
  decide

def natDigits : Nat → Nat → Bytes
  | 0, _ => []
  | fuel + 1, n => if n < 10 then [digit n] else natDigits fuel (n / 10) ++ [digit (n % 10)]

def natText (n : Nat) : Bytes := natDigits (n + 1) n

def digitsValue (ds : Bytes) : Nat := ds.foldl (fun acc d => acc * 10 + digitValue d) 0

theorem digitsValue_snoc (ds : Bytes) (d : UInt8) :
    digitsValue (ds ++ [d]) = digitsValue ds * 10 + digitValue d := by
  simp [digitsValue]

theorem natDigits_spec (fuel n : Nat) (h : n < fuel) :
    (natDigits fuel n).all isDigit = true ∧ natDigits fuel n ≠ [] ∧
      digitsValue (natDigits fuel n) = n := by
  induction fuel generalizing n with
  | zero => omega
  | succ fuel ih =>
    rw [natDigits]
    split
    · rename_i hn
      obtain ⟨hd, hv⟩ := digit_spec n hn
      exact ⟨by simp [hd], by simp, by simpa [digitsValue] using hv⟩
    · obtain ⟨hall, hne, hval⟩ := ih (n / 10) (by omega)
      obtain ⟨hd, hv⟩ := digit_spec (n % 10) (Nat.mod_lt n (by omega))
      refine ⟨by simp [List.all_append, hall, hd], by simp, ?_⟩
      rw [digitsValue_snoc, hval, hv]
      omega

theorem natText_all (n : Nat) : (natText n).all isDigit = true :=
  (natDigits_spec (n + 1) n (by omega)).1

theorem natText_ne_nil (n : Nat) : natText n ≠ [] :=
  (natDigits_spec (n + 1) n (by omega)).2.1

theorem natText_value (n : Nat) : digitsValue (natText n) = n :=
  (natDigits_spec (n + 1) n (by omega)).2.2

/-- A number read from text that is nothing but its digits. -/
def readNat (s : Bytes) : Option Nat :=
  if s ≠ [] ∧ s.all isDigit = true then some (digitsValue s) else none

theorem readNat_natText (n : Nat) : readNat (natText n) = some n := by
  rw [readNat, if_pos ⟨natText_ne_nil n, natText_all n⟩, natText_value]

/-- `std::to_string` of a signed integer. -/
def intText : Int → Bytes
  | .ofNat n => natText n
  | .negSucc n => 45 :: natText (n + 1)

def splitSign : Bytes → Int × Bytes
  | 45 :: s => (-1, s)
  | 43 :: s => (1, s)
  | s => (1, s)

def readInt (s : Bytes) : Option Int :=
  (readNat (splitSign s).2).map (fun n : Nat => (splitSign s).1 * (n : Int))

theorem splitSign_digits {s : Bytes} (hs : s ≠ []) (hd : s.all isDigit = true) :
    splitSign s = (1, s) := by
  cases s with
  | nil => exact absurd rfl hs
  | cons b s =>
    have hb : isDigit b = true := by simp only [List.all_cons, Bool.and_eq_true] at hd; exact hd.1
    unfold splitSign
    split
    · rename_i he
      obtain ⟨rfl, -⟩ := List.cons.inj he
      exact absurd hb (by decide)
    · rename_i he
      obtain ⟨rfl, -⟩ := List.cons.inj he
      exact absurd hb (by decide)
    · rfl

theorem splitSign_intText (n : Int) :
    splitSign (intText n) = (if n < 0 then -1 else 1, natText n.natAbs) := by
  cases n with
  | ofNat n =>
    have h := splitSign_digits (natText_ne_nil n) (natText_all n)
    rw [intText, h, if_neg (by simp)]
    rfl
  | negSucc n => simp [intText, splitSign, Int.negSucc_lt_zero]

theorem sign_mul_natAbs (n : Int) : (if n < 0 then -1 else 1) * (n.natAbs : Int) = n := by
  split <;> omega

theorem readInt_intText (n : Int) : readInt (intText n) = some n := by
  simp only [readInt, splitSign_intText, readNat_natText, Option.map_some, sign_mul_natAbs]

/-- The exponent part of a decimal literal, if there is one. -/
def readExponent : Bytes → Option Int
  | [] => some 0
  | b :: s => if b = 101 ∨ b = 69 then readInt s else none

/-- A decimal literal: sign, digits with an optional point, optional exponent. -/
def readDecimal (s : Bytes) : Option ℚ :=
  let (sign, s) := splitSign s
  let whole := s.takeWhile isDigit
  let s := s.dropWhile isDigit
  let fraction := if s.head? = some 46 then s.tail.takeWhile isDigit else []
  let s := if s.head? = some 46 then s.tail.dropWhile isDigit else s
  if whole = [] ∧ fraction = [] then none
  else (readExponent s).map fun e : Int =>
    (sign : ℚ) * (digitsValue (whole ++ fraction) : ℚ) * (10 : ℚ) ^ (e - fraction.length)

theorem takeWhile_digits {s : Bytes} (h : s.all isDigit = true) : s.takeWhile isDigit = s :=
  List.takeWhile_eq_self_iff.mpr (by simpa using h)

theorem dropWhile_digits {s : Bytes} (h : s.all isDigit = true) : s.dropWhile isDigit = [] :=
  List.dropWhile_eq_nil_iff.mpr (by simpa using h)

theorem readDecimal_intText (n : Int) : readDecimal (intText n) = some (n : ℚ) := by
  have hall := natText_all n.natAbs
  have hsign : ((if n < 0 then -1 else 1 : Int) : ℚ) * (n.natAbs : ℚ) = n := by
    have h := congrArg (fun z : Int => (z : ℚ)) (sign_mul_natAbs n)
    simpa using h
  simp only [readDecimal, splitSign_intText, takeWhile_digits hall, dropWhile_digits hall,
    List.head?_nil, reduceCtorEq, if_false, natText_ne_nil, false_and, List.append_nil,
    natText_value, readExponent, Option.map_some, List.length_nil, Nat.cast_zero, sub_zero,
    zpow_zero, mul_one, Int.cast_ite, Int.cast_neg, Int.cast_one] at hsign ⊢
  rw [hsign]

/-- A number as it is printed: a sign, digits, and maybe a fraction and a power of ten. -/
structure Decimal where
  negative : Bool
  whole : Bytes
  fraction : Bytes
  exponent : Option (Bool × Bytes)
  whole_ne : whole ≠ []
  whole_digits : whole.all isDigit = true
  fraction_digits : fraction.all isDigit = true
  exponent_ne : ∀ e ∈ exponent, e.2 ≠ []
  exponent_digits : ∀ e ∈ exponent, e.2.all isDigit = true

namespace Decimal

def point (d : Decimal) : Bytes := if d.fraction = [] then [] else 46 :: d.fraction

def power (d : Decimal) : Bytes :=
  match d.exponent with
  | none => []
  | some (negative, digits) => 101 :: (if negative then 45 else 43) :: digits

def unsigned (d : Decimal) : Bytes := d.whole ++ d.point ++ d.power

def text (d : Decimal) : Bytes := if d.negative then 45 :: d.unsigned else d.unsigned

end Decimal

end CdcPipeline.Library.Text
