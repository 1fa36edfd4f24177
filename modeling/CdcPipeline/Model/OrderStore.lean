import CdcPipeline.Library.History
import CdcPipeline.Model.OrderRow
import Mathlib.Logic.Function.Basic

namespace CdcPipeline.Model

open Library Text

/-- The rows of `orders` by their primary key. -/
abbrev Table := Bytes → Option OrderRow

/-- What the API does to `orders`, one operation at a time. -/
inductive StoreOp where
  | insert (row : OrderRow)
  | setStatus (id status : Bytes)
  | find (id : Bytes)

inductive StoreAns where
  | inserted (fresh : Bool)
  | updated (found : Bool)
  | row (r : Option OrderRow)

namespace OrderStore

def empty : Table := fun _ => none

/-- The store the API is for: an order is inserted once, its status is set, it is looked up. -/
def step : History.Spec StoreOp StoreAns Table
  | .insert row, t => match t row.id with
    | none => (.inserted true, Function.update t row.id (some row))
    | some _ => (.inserted false, t)
  | .setStatus id status, t => match t id with
    | some row => (.updated true, Function.update t id (some { row with status := status }))
    | none => (.updated false, t)
  | .find id, t => (.row (t id), t)

variable {t : Table} {row : OrderRow}

theorem step_insert (h : t row.id = none) :
    step (.insert row) t = (.inserted true, Function.update t row.id (some row)) := by
  simp only [step, h]

theorem step_insert_taken {old : OrderRow} (h : t row.id = some old) :
    step (.insert row) t = (.inserted false, t) := by
  simp only [step, h]

theorem step_setStatus {id : Bytes} (h : t id = some row) (status : Bytes) :
    step (.setStatus id status) t =
      (.updated true, Function.update t id (some { row with status := status })) := by
  simp only [step, h]

theorem step_setStatus_none {id : Bytes} (h : t id = none) (status : Bytes) :
    step (.setStatus id status) t = (.updated false, t) := by
  simp only [step, h]

theorem step_find {id : Bytes} (h : t id = some row) :
    step (.find id) t = (.row (some row), t) := by
  simp only [step, h]

/-- An update finds what is there. -/
theorem setStatus_found (id status : Bytes) (t : Table) :
    (step (.setStatus id status) t).1 = .updated (t id).isSome := by
  cases h : t id with
  | none => rw [step_setStatus_none h]; rfl
  | some row => rw [step_setStatus h]; rfl

/-- No operation takes an order away, or changes more of it than its status. -/
theorem step_keeps (o : StoreOp) {id : Bytes} (h : t id = some row) :
    ∃ status, (step o t).2 id = some { row with status := status } := by
  cases o with
  | find _ => exact ⟨row.status, h⟩
  | insert new =>
    cases hr : t new.id with
    | some _ =>
      rw [step_insert_taken hr]
      exact ⟨row.status, h⟩
    | none =>
      have hid : id ≠ new.id := by
        intro hid
        rw [hid, hr] at h
        contradiction
      rw [step_insert hr]
      exact ⟨row.status, (Function.update_of_ne hid ..).trans h⟩
  | setStatus id' status =>
    cases hr : t id' with
    | none =>
      rw [step_setStatus_none hr]
      exact ⟨row.status, h⟩
    | some old =>
      rw [step_setStatus hr]
      by_cases hid : id = id'
      · subst hid
        obtain rfl := Option.some.inj (h.symm.trans hr)
        exact ⟨status, Function.update_self ..⟩
      · exact ⟨row.status, (Function.update_of_ne hid ..).trans h⟩

theorem step_found (o : StoreOp) {id : Bytes} (h : (t id).isSome = true) :
    ((step o t).2 id).isSome = true := by
  obtain ⟨row, hrow⟩ := Option.isSome_iff_exists.mp h
  obtain ⟨status, hnext⟩ := step_keeps o hrow
  rw [hnext]
  rfl

/-- What has been inserted is there. -/
theorem insert_found (row : OrderRow) (t : Table) (h : (step (.insert row) t).1 = .inserted true) :
    ((step (.insert row) t).2 row.id).isSome = true := by
  cases hr : t row.id with
  | none =>
    rw [step_insert hr]
    simp
  | some old =>
    rw [step_insert_taken hr] at h
    cases h

/-- An order that is there was there before, or has been inserted. -/
theorem step_found_from (o : StoreOp) {id : Bytes} (h : ((step o t).2 id).isSome = true) :
    (t id).isSome = true ∨ ∃ row, o = .insert row ∧ row.id = id := by
  cases o with
  | find _ => exact Or.inl h
  | insert new =>
    by_cases hid : id = new.id
    · exact Or.inr ⟨new, rfl, hid.symm⟩
    · left
      cases hr : t new.id with
      | some old => rwa [step_insert_taken hr] at h
      | none =>
        rw [step_insert hr] at h
        simpa only [Function.update_of_ne hid] using h
  | setStatus id' status =>
    left
    cases hr : t id' with
    | none => rwa [step_setStatus_none hr] at h
    | some row =>
      rw [step_setStatus hr] at h
      by_cases hid : id = id'
      · subst hid
        rw [hr]
        rfl
      · simpa only [Function.update_of_ne hid] using h

/-- The row that an operation writes, if it writes one. -/
def written : StoreOp → Table → Option OrderRow
  | .insert row, t => if t row.id = none then some row else none
  | .setStatus id status, t => (t id).map ({ · with status := status })
  | .find _, _ => none

def writes : Table → List StoreOp → List OrderRow
  | _, [] => []
  | t, o :: os => (written o t).toList ++ writes (step o t).2 os

/-- Every row is under its own id. -/
def Keyed (t : Table) : Prop := ∀ id row, t id = some row → row.id = id

theorem keyed_empty : Keyed empty := fun _ _ h => by cases h

theorem step_written (hk : Keyed t) (o : StoreOp) (id : Bytes) : (step o t).2 id =
    match written o t with
    | some row => if row.id = id then some row else t id
    | none => t id := by
  cases o with
  | find _ => rfl
  | insert row =>
    cases hr : t row.id with
    | some old =>
      rw [step_insert_taken hr, written, if_neg (by rw [hr]; simp)]
    | none =>
      rw [step_insert hr, written, if_pos hr]
      by_cases hid : row.id = id
      · subst hid
        simp
      · simp [hid, Function.update_of_ne (Ne.symm hid)]
  | setStatus id' status =>
    cases hr : t id' with
    | none => rw [step_setStatus_none hr, written, hr]; rfl
    | some row =>
      have hrow := hk id' row hr
      rw [step_setStatus hr, written, hr]
      by_cases hid : id' = id
      · subst hid
        simp [hrow]
      · simp [hrow, hid, Function.update_of_ne (Ne.symm hid)]

theorem step_keyed (hk : Keyed t) (o : StoreOp) : Keyed (step o t).2 := by
  intro id row h
  rw [step_written hk] at h
  cases hw : written o t with
  | none =>
    rw [hw] at h
    exact hk id row h
  | some new =>
    rw [hw] at h
    by_cases hid : new.id = id
    · obtain rfl : new = row := by simpa [hid] using h
      exact hid
    · exact hk id row (by simpa [hid] using h)

end OrderStore

end CdcPipeline.Model
