import CdcPipeline.Model.Record

namespace CdcPipeline.Model

open Library Text

def isHex (b : UInt8) : Bool := isDigit b || (97 ≤ b && b ≤ 102) || (65 ≤ b && b ≤ 70)

/-- The text form of a UUID: hexadecimal digits in groups of 8, 4, 4, 4 and 12. -/
def isUuid (s : Bytes) : Bool :=
  s.length = 36 && s[8]? == some 45 && s[13]? == some 45 && s[18]? == some 45 &&
    s[23]? == some 45 && s.all (fun b => isHex b || b = 45)

namespace Debezium

/-- A row image of the order `id`: an object with that id, whose columns do not look
like a union wrapper. -/
structure Row (id : Bytes) (row : Json) : Prop where
  hasId : row.member (bytes "id") = some (.str id)
  plain : (row.member (bytes "Value")).filter Json.isObject = none
  utf8 : row.utf8 = true

/-- The ways an envelope spells a row: plainly, or inside the branch of a union. -/
inductive Spells (row : Json) : Json → Prop where
  | plain : Spells row row
  | value : Spells row (.obj [(bytes "Value", row)])
  | branch (name : Bytes) (notId : name ≠ bytes "id") : Spells row (.obj [(name, row)])

/-- The ways it spells an LSN. -/
inductive SpellsLsn (lsn : Nat) : Json → Prop where
  | number : SpellsLsn lsn (.int lsn)
  | long : SpellsLsn lsn (.obj [(bytes "long", .int lsn)])

/-- What an event does to its order: a row to store, or nothing left of it. -/
inductive Shape (record : Json) (id : Bytes) : Option Json → Prop where
  | upsert {row after} (row_ : Row id row) (spelt : Spells row after)
      (after_ : record.nonNull (bytes "after") = some after) : Shape record id (some row)
  | delete {row before} (row_ : Row id row) (spelt : Spells row before)
      (noAfter : record.nonNull (bytes "after") = none)
      (noId : record.contains (bytes "id") = false)
      (noOrderId : record.contains (bytes "order_id") = false)
      (op : record.member (bytes "op") = some (.str (bytes "d")))
      (before_ : record.nonNull (bytes "before") = some before) : Shape record id none

/-- A well-formed change event of one order. -/
structure Event where
  record : Json
  id : Bytes
  lsn : Nat
  image : Option Json
  uuid : isUuid id = true
  bound : lsn < 2 ^ 53
  source : ∃ src v, record.member (bytes "source") = some src ∧ src.isObject = true ∧
    src.member (bytes "lsn") = some v ∧ SpellsLsn lsn v
  shape : Shape record id image

theorem isObject_obj {j : Json} (h : j.isObject = true) : ∃ ms, j = .obj ms := by
  cases j with
  | obj ms => exact ⟨ms, rfl⟩
  | _ => contradiction

theorem isObject_of_member {j v : Json} {k : Bytes} (h : j.member k = some v) :
    j.isObject = true := by
  cases j with
  | obj ms => rfl
  | _ => contradiction

theorem Row.isObject {id : Bytes} {row : Json} (h : Row id row) : row.isObject = true :=
  isObject_of_member h.hasId

/-- An object whose id is no object, and which has no branch, is nobody's wrapper. -/
theorem unwrap_plain {row v : Json} (hid : row.member (bytes "id") = some v)
    (hv : v.isObject = false) (hplain : (row.member (bytes "Value")).filter Json.isObject = none) :
    Record.unwrapUnion row = row := by
  obtain ⟨ms, rfl⟩ := isObject_obj (isObject_of_member hid)
  simp only [Json.member] at hid hplain
  unfold Record.unwrapUnion
  simp only [hplain]
  rcases ms with _ | ⟨⟨k, w⟩, _ | ⟨_, _⟩⟩
  · rfl
  · -- the only member is the id, which is not an object
    simp only [List.lookup_cons, List.lookup_nil] at hid
    split at hid
    · obtain rfl := Option.some.inj hid
      simp [hv]
    · contradiction
  · rfl

/-- However a row is spelled, it is unwrapped to itself. -/
theorem unwrap_spells {row v : Json} (hobj : row.isObject = true)
    (hrow : Record.unwrapUnion row = row) (hs : Spells row v) : Record.unwrapUnion v = row := by
  have hfilter : Option.filter Json.isObject (some row) = some row := by
    rw [Option.filter_some, hobj, if_pos rfl]
  cases hs with
  | plain => exact hrow
  | value => simp [Record.unwrapUnion, hfilter]
  | branch name notId =>
    by_cases hn : name = bytes "Value"
    · subst hn
      simp [Record.unwrapUnion, hfilter]
    · have hl : List.lookup (bytes "Value") [(name, row)] = none := by
        rw [List.lookup_cons, beq_false_of_ne (Ne.symm hn)]
        rfl
      simp [Record.unwrapUnion, hl, hobj, notId]

theorem unwrap_spelt {id : Bytes} {row v : Json} (h : Row id row) (hs : Spells row v) :
    Record.unwrapUnion v = row :=
  unwrap_spells h.isObject (unwrap_plain h.hasId rfl h.plain) hs

theorem orderId_row {id : Bytes} {row : Json} (h : Row id row) (hne : id ≠ []) (key : Bytes) :
    Record.orderId row key = .ok id := by
  have hn : row.nonNull (bytes "id") = some (.str id) := by
    rw [Json.nonNull, h.hasId]
    rfl
  simp only [Record.orderId, Record.idText, hn, Record.textOf]
  exact congrArg Except.ok (if_neg hne)

theorem Shape.orderData_some {record row : Json} {id : Bytes} (h : Shape record id (some row)) :
    Record.orderData record = some row ∧ Row id row := by
  cases h with
  | upsert row_ spelt after_ =>
    refine ⟨?_, row_⟩
    rw [Record.orderData, Record.selectRow, after_]
    exact congrArg some (unwrap_spelt row_ spelt)

theorem Shape.orderData_none {record : Json} {id : Bytes} (h : Shape record id none) :
    Record.orderData record = none ∧
      ∃ row, Record.beforeData record = some row ∧ Row id row := by
  cases h with
  | delete row_ spelt noAfter noId noOrderId op before_ =>
    refine ⟨?_, _, ?_, row_⟩
    · rw [Record.orderData, Record.selectRow, noAfter, noId, noOrderId]
      rfl
    · rw [Record.beforeData, Record.isDelete, op, before_]
      exact congrArg some (unwrap_spelt row_ spelt)

namespace Event

theorem id_ne_nil (e : Event) : e.id ≠ [] := by
  intro h
  have hu := e.uuid
  rw [h] at hu
  contradiction

theorem extractLsn (e : Event) : Record.extractLsn e.record = e.lsn := by
  obtain ⟨src, v, hsrc, hobj, hv, hs⟩ := e.source
  have hbound := e.bound
  have hmod : Int.bmod (e.lsn : Int) (2 ^ 64) = e.lsn := by
    apply Int.bmod_eq_of_le <;> omega
  have hlsn : Record.lsnOf v = some (e.lsn : Int) := by
    cases hs with
    | number => exact congrArg some hmod
    | long => exact congrArg some hmod
  have hnn : src.nonNull (bytes "lsn") = some v := by
    rw [Json.nonNull, hv]
    cases hs with
    | number => rfl
    | long => rfl
  have hsource : (e.record.member (bytes "source")).filter Json.isObject = some src := by
    rw [hsrc, Option.filter_some, hobj, if_pos rfl]
  simp only [Record.extractLsn, hsource, Option.bind_some, hnn, hlsn, Option.orElse_some,
    Option.getD_some]

theorem orderData_upsert (e : Event) {row : Json} (h : e.image = some row) :
    Record.orderData e.record = some row ∧ Row e.id row :=
  Shape.orderData_some (h ▸ e.shape)

theorem orderData_delete (e : Event) (h : e.image = none) :
    Record.orderData e.record = none ∧
      ∃ row, Record.beforeData e.record = some row ∧ Row e.id row :=
  Shape.orderData_none (h ▸ e.shape)

/-- The text a sink stores for the event's image. -/
def text (e : Event) : Option Bytes := e.image.bind (fun row => row.dump.toOption)

theorem dump_image (e : Event) {row : Json} (h : e.image = some row) :
    ∃ t, row.dump = .ok t ∧ e.text = some t := by
  obtain ⟨t, ht⟩ := (Json.dump_ok_iff row).mpr (e.orderData_upsert h).2.utf8
  exact ⟨t, ht, by simp [text, h, ht, Except.toOption]⟩

end Event

/-- The event as a plain JSON payload. -/
def Event.payload (e : Event) : Option Bytes := e.record.dump.toOption

def sampleId : Bytes := bytes "00000000-0000-0000-0000-000000000001"

def sampleRow : Json :=
  .obj [(bytes "id", .str sampleId), (bytes "status", .str (bytes "SHIPPED"))]

theorem sampleId_uuid : isUuid sampleId = true := by decide

theorem sampleRow_row : Row sampleId sampleRow := ⟨rfl, rfl, by decide⟩

theorem one_bound : 1 < 2 ^ 53 := by decide

theorem two_bound : 2 < 2 ^ 53 := by decide

def sampleSource (lsn : Nat) : Json := .obj [(bytes "lsn", .int lsn)]

def sampleUpsert (lsn : Nat) (bound : lsn < 2 ^ 53) : Event where
  record := .obj [(bytes "after", sampleRow), (bytes "op", .str (bytes "u")),
    (bytes "source", sampleSource lsn)]
  id := sampleId
  lsn := lsn
  image := some sampleRow
  uuid := sampleId_uuid
  bound := bound
  source := ⟨sampleSource lsn, .int lsn, rfl, rfl, rfl, .number⟩
  shape := .upsert sampleRow_row .plain rfl

def sampleDelete (lsn : Nat) (bound : lsn < 2 ^ 53) : Event where
  record := .obj [(bytes "before", sampleRow), (bytes "op", .str (bytes "d")),
    (bytes "source", sampleSource lsn)]
  id := sampleId
  lsn := lsn
  image := none
  uuid := sampleId_uuid
  bound := bound
  source := ⟨sampleSource lsn, .int lsn, rfl, rfl, rfl, .number⟩
  shape := .delete sampleRow_row .plain rfl rfl rfl rfl rfl

end Debezium

end CdcPipeline.Model
