import CdcPipeline.Library.Json
import CdcPipeline.Library.Double

namespace CdcPipeline.Model.Record

open Library Text

-- The part of `ProcessRecord` that the three consumers write out alike: which row a record
-- carries, whose it is, and how new it is.

/-- A value printed for a key or a log line: a string as it is, the rest dumped. -/
def textOf : Json → Except Bytes Bytes
  | .str s => .ok s
  | j => j.dump

theorem textOf_ok {v : Json} (h : v.utf8 = true) : ∃ t, textOf v = .ok t := by
  cases v with
  | str s => exact ⟨s, rfl⟩
  | _ => exact (Json.dump_ok_iff _).mpr h

/-- Avro's JSON encoding wraps a row in the name of its union branch. -/
def unwrapUnion : Json → Json
  | .obj ms =>
    match (ms.lookup (bytes "Value")).filter Json.isObject with
    | some row => row
    | none => match ms with
      | [(k, v)] => if v.isObject && k != bytes "id" then v else .obj ms
      | _ => .obj ms
  | j => j

/-- The image a record asks to be stored, before unwrapping. -/
def selectRow (record : Json) : Option Json :=
  match record.nonNull (bytes "after") with
  | some after => some after
  | none =>
    if record.contains (bytes "order_id") || record.contains (bytes "id") then some record else none

def orderData (record : Json) : Option Json := (selectRow record).map unwrapUnion

/-- `op == "d"`. -/
def isDelete (record : Json) : Bool :=
  match record.member (bytes "op") with
  | some (.str op) => op == bytes "d"
  | _ => false

/-- The image a delete event removes, looked for only when there is none to store. -/
def beforeData (record : Json) : Option Json :=
  if isDelete record then (record.nonNull (bytes "before")).map unwrapUnion else none

def idText (row : Json) : Except Bytes Bytes :=
  match row.nonNull (bytes "id") with
  | some v => textOf v
  | none => match row.nonNull (bytes "order_id") with
    | some v => textOf v
    | none => .ok []

/-- The order a row belongs to; a row without an id belongs to its message's key. -/
def orderId (row : Json) (key : Bytes) : Except Bytes Bytes := do
  let id ← idText row
  return if id = [] then key else id

/-- `value(key, default)` for a string default. -/
def stringValue (row : Json) (key default : Bytes) : Except Bytes Bytes :=
  match row with
  | .obj ms => match ms.lookup key with
    | none => .ok default
    | some (.str s) => .ok s
    | some v => .error
      (bytes "[json.exception.type_error.302] type must be string, but is " ++ v.typeName)
  | j => .error (bytes "[json.exception.type_error.306] cannot use value() with " ++ j.typeName)

def inInt64 (n : Int) : Bool := -2 ^ 63 ≤ n && n < 2 ^ 63

/-- A double cut down to an integer; one that does not fit gives the value the
processor's conversion gives. -/
def truncateFloat (x : FloatText) : Int :=
  let q := Double.roundDouble ((readDecimal x.text).getD 0)
  let n := if q < 0 then -⌊-q⌋ else ⌊q⌋
  if inInt64 n then n else -2 ^ 63

/-- `is_number()` and then `get<int64_t>()`. -/
def getInt64 : Json → Option Int
  | .int n => some (Int.bmod n (2 ^ 64))
  | .float x => some (truncateFloat x)
  | _ => none

def isSpace (b : UInt8) : Bool := b = 32 || (9 ≤ b && b ≤ 13)

/-- `std::stoll`, where `none` is its exception. -/
def stoll (s : Bytes) : Option Int :=
  let (sign, s) := splitSign (s.dropWhile isSpace)
  let digits := s.takeWhile isDigit
  if digits = [] then none
  else
    let n := sign * digitsValue digits
    if inInt64 n then some n else none

/-- A number, or a string that `std::stoll` takes. -/
def scalarLsn : Json → Option Int
  | .str s => stoll s
  | j => getInt64 j

def lsnOf : Json → Option Int
  | .obj ms => ms.findSome? (fun m => scalarLsn m.2)
  | j => scalarLsn j

def tsMs (j : Json) : Option Int := (j.member (bytes "ts_ms")).bind getInt64

/-- `ExtractLSN`: the source's LSN, else its time, else the record's, else zero. -/
def extractLsn (record : Json) : Int :=
  let source := (record.member (bytes "source")).filter Json.isObject
  let lsn := source.bind (fun src => (src.nonNull (bytes "lsn")).bind lsnOf)
  (lsn.orElse fun _ => (source.bind tsMs).orElse fun _ => tsMs record).getD 0

theorem inInt64_iff (n : Int) : inInt64 n = true ↔ -2 ^ 63 ≤ n ∧ n < 2 ^ 63 := by
  simp [inInt64]

theorem inInt64_getInt64 {j : Json} {n : Int} (h : getInt64 j = some n) : inInt64 n = true := by
  cases j with
  | int m =>
    obtain rfl := Option.some.inj h
    have hl : -(2 ^ 64 / 2) ≤ Int.bmod m (2 ^ 64) := Int.le_bmod (by decide)
    have hu : Int.bmod m (2 ^ 64) < (2 ^ 64 + 1) / 2 := Int.bmod_lt (by decide)
    rw [inInt64_iff]
    exact ⟨hl, hu⟩
  | float x =>
    obtain rfl := Option.some.inj h
    simp only [truncateFloat]
    generalize (if Double.roundDouble ((readDecimal x.text).getD 0) < 0 then
      -⌊-Double.roundDouble ((readDecimal x.text).getD 0)⌋
      else ⌊Double.roundDouble ((readDecimal x.text).getD 0)⌋) = n
    by_cases hn : inInt64 n = true
    · rw [if_pos hn]
      exact hn
    · rw [if_neg hn]
      rfl
  | _ => contradiction

theorem inInt64_scalarLsn {j : Json} {n : Int} (h : scalarLsn j = some n) : inInt64 n = true := by
  cases j with
  | str s =>
    unfold scalarLsn stoll at h
    dsimp only at h
    split_ifs at h with hd hn
    exact Option.some.inj h ▸ hn
  | _ =>
    simp only [scalarLsn] at h
    exact inInt64_getInt64 h

theorem inInt64_lsnOf {j : Json} {n : Int} (h : lsnOf j = some n) : inInt64 n = true := by
  cases j with
  | obj ms =>
    obtain ⟨m, -, hm⟩ := List.exists_of_findSome?_eq_some h
    exact inInt64_scalarLsn hm
  | _ =>
    simp only [lsnOf] at h
    exact inInt64_scalarLsn h

/-- Whatever the record says, its version is an `int64_t`. -/
theorem inInt64_extractLsn (record : Json) : inInt64 (extractLsn record) = true := by
  have hts : ∀ j n, tsMs j = some n → inInt64 n = true := by
    intro j n h
    obtain ⟨v, -, hv⟩ := Option.bind_eq_some_iff.mp h
    exact inInt64_getInt64 hv
  unfold extractLsn
  dsimp only
  generalize (record.member (bytes "source")).filter Json.isObject = source
  cases hl : source.bind (fun src => (src.nonNull (bytes "lsn")).bind lsnOf) with
  | some n =>
    obtain ⟨src, -, hs⟩ := Option.bind_eq_some_iff.mp hl
    obtain ⟨v, -, hv⟩ := Option.bind_eq_some_iff.mp hs
    exact inInt64_lsnOf hv
  | none =>
    cases hs : source.bind tsMs with
    | some n =>
      obtain ⟨src, -, hn⟩ := Option.bind_eq_some_iff.mp hs
      exact hts src n hn
    | none =>
      cases hr : tsMs record with
      | some n => exact hts record n hr
      | none => decide

end CdcPipeline.Model.Record
