import CdcPipeline.Library.Text
import Mathlib.Data.List.DropRight

namespace CdcPipeline.Library.Sql

open Text

/-- A statement's tokens: keywords and names as they are spelled, numerals, the string that
a literal denotes, operators, and punctuation. -/
inductive Token where
  | word (s : Bytes)
  | number (s : Bytes)
  | string (s : Bytes)
  | operator (s : Bytes)
  | punctuation (b : UInt8)
deriving DecidableEq

/-- How far a numeral has come. -/
inductive Numeral where
  | integer | fraction | mark | sign | exponent
deriving DecidableEq

/-- Where the lexer is behind a literal's closing quote, and whether a newline lets another
quote take the literal up again. -/
inductive Behind where
  | quote
  | gap (newline : Bool)
  | dash (newline : Bool)
  | comment
deriving DecidableEq

inductive State where
  | base
  | word (s : Bytes)
  | numeral (s : Bytes) (n : Numeral)
  | operator (s : Bytes)
  | lineComment
  | blockComment (depth : Nat) (last : UInt8)
  | literal (s : Bytes)
  | behind (s : Bytes) (at_ : Behind)
deriving DecidableEq

def isNewline (b : UInt8) : Bool := b = 10 || b = 13

def isSpace (b : UInt8) : Bool := b = 32 || b = 9 || b = 10 || b = 12 || b = 13

def isLetter (b : UInt8) : Bool :=
  (65 ≤ b && b ≤ 90) || (97 ≤ b && b ≤ 122) || b = 95 || 128 ≤ b

def isOperator (b : UInt8) : Bool := (bytes "~!@#^&|`?+-*/%<>=").contains b

/-- An operator may end in a sign only if it has one of these. -/
def isStrong (b : UInt8) : Bool := (bytes "~!@#^&|`?%").contains b

def isSign (b : UInt8) : Bool := b = 43 || b = 45

def isPunctuation (b : UInt8) : Bool := (bytes ",();[]").contains b

/-- The letters that make another kind of literal of a quote behind them. -/
def isPrefix (s : Bytes) : Bool := (bytes "eEbBxXnN").any (fun b => s == [b])

/-- A run of operator characters, its trailing signs taken one by one. -/
def operators : Bytes → List Token
  | [] => []
  | b :: s =>
    if (b :: s).any isStrong then [.operator (b :: s)]
    else .operator (b :: s.rdropWhile isSign) :: (s.rtakeWhile isSign).map (fun c => .operator [c])

/-- The first byte of a token. Quoted names, parameters, casts, dollar quotes and literals
with a prefix are not read: a statement with one of them is none of those lexed here. -/
def start (b : UInt8) : Option (List Token × State) :=
  if isSpace b then some ([], .base)
  else if isDigit b then some ([], .numeral [b] .integer)
  else if isLetter b then some ([], .word [b])
  else if b = 39 then some ([], .literal [])
  else if isOperator b then some ([], .operator [b])
  else if isPunctuation b then some ([.punctuation b], .base)
  else none

def emit (out : List Token) (next : Option (List Token × State)) : Option (List Token × State) :=
  next.map fun n => (out ++ n.1, n.2)

def stepWord (s : Bytes) (b : UInt8) : Option (List Token × State) :=
  if isLetter b || isDigit b || b = 36 then some ([], .word (s ++ [b]))
  else if (b = 39 && isPrefix s) || (b = 38 && (s == bytes "u" || s == bytes "U")) then none
  else emit [.word s] (start b)

def stepNumeral (s : Bytes) (n : Numeral) (b : UInt8) : Option (List Token × State) :=
  match n with
  | .integer =>
    if isDigit b then some ([], .numeral (s ++ [b]) .integer)
    else if b = 46 then some ([], .numeral (s ++ [b]) .fraction)
    else if b = 101 || b = 69 then some ([], .numeral (s ++ [b]) .mark)
    else if isLetter b then none
    else emit [.number s] (start b)
  | .fraction =>
    if isDigit b then some ([], .numeral (s ++ [b]) .fraction)
    else if b = 101 || b = 69 then some ([], .numeral (s ++ [b]) .mark)
    else if isLetter b then none
    else emit [.number s] (start b)
  | .mark =>
    if isDigit b then some ([], .numeral (s ++ [b]) .exponent)
    else if isSign b then some ([], .numeral (s ++ [b]) .sign)
    else none
  | .sign => if isDigit b then some ([], .numeral (s ++ [b]) .exponent) else none
  | .exponent =>
    if isDigit b then some ([], .numeral (s ++ [b]) .exponent)
    else if isLetter b then none
    else emit [.number s] (start b)

def stepOperator (s : Bytes) (b : UInt8) : Option (List Token × State) :=
  if b = 45 && s.getLast? == some 45 then some (operators s.dropLast, .lineComment)
  else if b = 42 && s.getLast? == some 47 then some (operators s.dropLast, .blockComment 1 0)
  else if isOperator b then some ([], .operator (s ++ [b]))
  else emit (operators s) (start b)

/-- Comments nest. -/
def stepBlock (depth : Nat) (last b : UInt8) : State :=
  if last = 42 && b = 47 then if depth = 1 then .base else .blockComment (depth - 1) 0
  else if last = 47 && b = 42 then .blockComment (depth + 1) 0
  else .blockComment depth b

/-- Behind the quote: white space and comments that hold a newline may lie between the
parts of one literal. -/
def stepGap (s : Bytes) (newline : Bool) (b : UInt8) : Option (List Token × State) :=
  if isNewline b then some ([], .behind s (.gap true))
  else if isSpace b then some ([], .behind s (.gap newline))
  else if b = 45 then some ([], .behind s (.dash newline))
  else emit [.string s] (start b)

def stepBehind (s : Bytes) (b : UInt8) : Behind → Option (List Token × State)
  | .quote => if b = 39 then some ([], .literal (s ++ [39])) else stepGap s false b
  | .gap newline =>
    if b = 39 then if newline then some ([], .literal s) else some ([.string s], .literal [])
    else stepGap s newline b
  | .dash _ =>
    if b = 45 then some ([], .behind s .comment)
    else emit [.string s] (stepOperator [45] b)
  | .comment =>
    if isNewline b then some ([], .behind s (.gap true)) else some ([], .behind s .comment)

def step : State → UInt8 → Option (List Token × State)
  | .base, b => start b
  | .word s, b => stepWord s b
  | .numeral s n, b => stepNumeral s n b
  | .operator s, b => stepOperator s b
  | .lineComment, b => some ([], if isNewline b then .base else .lineComment)
  | .blockComment depth last, b => some ([], stepBlock depth last b)
  | .literal s, b => if b = 39 then some ([], .behind s .quote) else some ([], .literal (s ++ [b]))
  | .behind s at_, b => stepBehind s b at_

def finish : State → Option (List Token)
  | .base | .lineComment => some []
  | .word s => some [.word s]
  | .numeral s n =>
    if n = .integer || n = .fraction || n = .exponent then some [.number s] else none
  | .operator s => some (operators s)
  | .blockComment .. | .literal _ => none
  | .behind s (.dash _) => some [.string s, .operator [45]]
  | .behind s _ => some [.string s]

def run : State → Bytes → Option (List Token)
  | st, [] => finish st
  | st, b :: s => match step st b with
    | none => none
    | some (out, st') => (run st' s).map (out ++ ·)

/-- The tokens of a statement, as PostgreSQL reads it with `standard_conforming_strings` on;
none if a literal or a comment is not closed, or a byte starts no token. -/
def lex (s : Bytes) : Option (List Token) := run .base s

/-- The tokens that are sure when the text has been read up to here. -/
def feed : State → Bytes → Option (List Token × State)
  | st, [] => some ([], st)
  | st, b :: s => match step st b with
    | none => none
    | some (out, st') => emit out (feed st' s)

theorem run_append (st : State) (p s : Bytes) : run st (p ++ s) =
    (feed st p).bind (fun r => (run r.2 s).map (r.1 ++ ·)) := by
  induction p generalizing st with
  | nil => simp [feed]
  | cons b p ih =>
    simp only [List.cons_append, run, feed]
    cases step st b with
    | none => rfl
    | some r =>
      obtain ⟨out, st'⟩ := r
      simp only [ih, emit]
      cases feed st' p with
      | none => rfl
      | some r =>
        simp only [Option.bind_some, Option.map_map, Option.map_some]
        congr 1
        funext ts
        simp

theorem feed_append (st : State) (p s : Bytes) : feed st (p ++ s) =
    (feed st p).bind (fun r => emit r.1 (feed r.2 s)) := by
  induction p generalizing st with
  | nil => simp [feed, emit]
  | cons b p ih =>
    simp only [List.cons_append, feed]
    cases step st b with
    | none => rfl
    | some r =>
      obtain ⟨out, st'⟩ := r
      simp only [ih, emit]
      cases feed st' p with
      | none => rfl
      | some r =>
        simp only [Option.bind_some, Option.map_map, Option.map_some]
        congr 1
        funext n
        simp

/-- What was read stands in front of what is still to come. -/
theorem run_feed {st st' : State} {p : Bytes} {out : List Token} (h : feed st p = some (out, st'))
    (s : Bytes) : run st (p ++ s) = (run st' s).map (out ++ ·) := by
  rw [run_append, h]
  rfl

/-- The same, a part at a time. -/
theorem feed_feed {st st' : State} {p : Bytes} {out : List Token} (h : feed st p = some (out, st'))
    (s : Bytes) : feed st (p ++ s) = emit out (feed st' s) := by
  rw [feed_append, h]
  rfl

@[simp] theorem emit_nil (next : Option (List Token × State)) : emit [] next = next := by
  cases next <;> rfl

/-- A numeral may end here. -/
def Numeral.Complete (n : Numeral) : Prop := n = .integer ∨ n = .fraction ∨ n = .exponent

theorem start_digit {b : UInt8} (h : isDigit b = true) :
    start b = some ([], .numeral [b] .integer) := by
  have hs : isSpace b = false := by
    by_contra hb
    rw [Bool.not_eq_false] at hb
    simp only [isSpace, Bool.or_eq_true, decide_eq_true_eq] at hb
    rcases hb with (((rfl | rfl) | rfl) | rfl) | rfl <;> contradiction
  simp only [start, hs, h, Bool.false_eq_true, if_false, if_true]

theorem not_operator {b : UInt8} (h : isDigit b = true) : isOperator b = false := by
  have hl : bytes "~!@#^&|`?+-*/%<>=" =
      [126, 33, 64, 35, 94, 38, 124, 96, 63, 43, 45, 42, 47, 37, 60, 62, 61] := rfl
  by_contra hb
  rw [Bool.not_eq_false, isOperator, hl, List.contains_iff_mem] at hb
  simp only [List.mem_cons, List.not_mem_nil, or_false] at hb
  rcases hb with rfl | rfl | rfl | rfl | rfl | rfl | rfl | rfl | rfl | rfl | rfl | rfl | rfl | rfl |
    rfl | rfl | rfl <;> contradiction

theorem feed_digits {ds : Bytes} (h : ds.all isDigit = true) {n : Numeral} (hn : n.Complete)
    (s : Bytes) : feed (.numeral s n) ds = some ([], .numeral (s ++ ds) n) := by
  induction ds generalizing s with
  | nil => simp [feed]
  | cons b ds ih =>
    rw [List.all_cons, Bool.and_eq_true] at h
    have hstep : step (.numeral s n) b = some ([], .numeral (s ++ [b]) n) := by
      rcases hn with rfl | rfl | rfl <;> simp only [step, stepNumeral, h.1, if_true]
    simp [feed, hstep, ih h.2]

theorem feed_point (d : Decimal) (s : Bytes) : ∃ n : Numeral, (n = .integer ∨ n = .fraction) ∧
    feed (.numeral s .integer) d.point = some ([], .numeral (s ++ d.point) n) := by
  unfold Decimal.point
  by_cases hf : d.fraction = []
  · rw [if_pos hf]
    exact ⟨.integer, Or.inl rfl, by simp [feed]⟩
  · rw [if_neg hf]
    refine ⟨.fraction, Or.inr rfl, ?_⟩
    have hdigits := feed_digits d.fraction_digits (n := .fraction) (Or.inr (Or.inl rfl)) (s ++ [46])
    have hstep : step (.numeral s .integer) 46 = some ([], .numeral (s ++ [46]) .fraction) := rfl
    simp [feed, hstep, hdigits]

theorem feed_power (d : Decimal) (s : Bytes) {n : Numeral} (hn : n = .integer ∨ n = .fraction) :
    ∃ n' : Numeral, n'.Complete ∧
      feed (.numeral s n) d.power = some ([], .numeral (s ++ d.power) n') := by
  unfold Decimal.power
  cases he : d.exponent with
  | none =>
    refine ⟨n, hn.imp_right Or.inl, by simp [feed]⟩
  | some e =>
    obtain ⟨negative, digits⟩ := e
    refine ⟨.exponent, Or.inr (Or.inr rfl), ?_⟩
    obtain ⟨b, ds, rfl⟩ := List.exists_cons_of_ne_nil (d.exponent_ne _ he)
    have hall := d.exponent_digits _ he
    simp only [List.all_cons, Bool.and_eq_true] at hall
    have hmark : step (.numeral s n) 101 = some ([], .numeral (s ++ [101]) .mark) := by
      rcases hn with rfl | rfl <;> rfl
    have hsign : ∀ t, step (.numeral t .mark) (if negative then 45 else 43) =
        some ([], .numeral (t ++ [if negative then 45 else 43]) .sign) := by
      intro t
      cases negative <;> rfl
    have hfirst : ∀ t, step (.numeral t .sign) b = some ([], .numeral (t ++ [b]) .exponent) := by
      intro t
      simp only [step, stepNumeral, hall.1, if_true]
    have hrest := fun t => feed_digits hall.2 (n := .exponent) (Or.inr (Or.inr rfl)) t
    simp [feed, hmark, hsign, hfirst, hrest]

/-- A decimal without its sign is read as one numeral. -/
theorem feed_unsigned (d : Decimal) : ∃ n : Numeral, n.Complete ∧
    feed .base d.unsigned = some ([], .numeral d.unsigned n) := by
  obtain ⟨b, ds, hw⟩ := List.exists_cons_of_ne_nil d.whole_ne
  have hall := d.whole_digits
  rw [hw, List.all_cons, Bool.and_eq_true] at hall
  have hwhole : feed .base d.whole = some ([], .numeral d.whole .integer) := by
    have hdigits := feed_digits hall.2 (n := .integer) (Or.inl rfl) [b]
    rw [hw]
    simp [feed, step, start_digit hall.1, hdigits]
  obtain ⟨n, hn, hpoint⟩ := feed_point d d.whole
  obtain ⟨n', hn', hpower⟩ := feed_power d (d.whole ++ d.point) hn
  refine ⟨n', hn', ?_⟩
  rw [Decimal.unsigned, List.append_assoc, feed_feed hwhole, feed_feed hpoint, hpower]
  simp

/-- The tokens of a decimal: its sign is an operator. -/
def decimalTokens (d : Decimal) : List Token :=
  if d.negative then [.operator [45], .number d.unsigned] else [.number d.unsigned]

theorem feed_decimal (d : Decimal) : ∃ n : Numeral, n.Complete ∧
    feed .base d.text =
      some (if d.negative then [.operator [45]] else [], .numeral d.unsigned n) := by
  obtain ⟨n, hn, hu⟩ := feed_unsigned d
  refine ⟨n, hn, ?_⟩
  unfold Decimal.text
  cases d.negative with
  | false => simpa using hu
  | true =>
    obtain ⟨b, ds, hw⟩ := List.exists_cons_of_ne_nil d.whole_ne
    have hall := d.whole_digits
    rw [hw, List.all_cons, Bool.and_eq_true] at hall
    have hcons : d.unsigned = b :: (ds ++ d.point ++ d.power) := by
      simp [Decimal.unsigned, hw]
    have hminus : step .base 45 = some ([], .operator [45]) := rfl
    have hb : ¬ b = 45 ∧ ¬ b = 42 := by
      constructor
      · rintro rfl
        exact absurd hall.1 (by decide)
      · rintro rfl
        exact absurd hall.1 (by decide)
    have hfirst : step (.operator [45]) b = some ([.operator [45]], .numeral [b] .integer) := by
      simp only [step, stepOperator, hb.1, hb.2, decide_false, Bool.false_and, Bool.false_eq_true,
        if_false, not_operator hall.1, start_digit hall.1]
      rfl
    have hrest : feed (.numeral [b] .integer) (ds ++ d.point ++ d.power) =
        some ([], .numeral d.unsigned n) := by
      rw [hcons] at hu ⊢
      simpa [feed, step, start_digit hall.1] using hu
    rw [if_pos rfl, hcons]
    simp only [feed, hminus, hfirst, hrest, emit, Option.map_some, List.append_nil,
      List.nil_append, if_true]
    rw [hcons]

end CdcPipeline.Library.Sql
