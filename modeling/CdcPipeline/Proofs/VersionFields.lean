import CdcPipeline.Model.Record

namespace CdcPipeline.Proofs.VersionFields

open Library Text Model Record

/-- The fields that `ExtractLSN` looks at. -/
inductive VersionField where
  | sourceLsn
  | sourceTsMs
  | tsMs
deriving DecidableEq

/-- A number as itself, or as the branch of a nullable union. -/
inductive Encoding where
  | plain
  | long
deriving DecidableEq

def Encoding.json : Encoding → Int → Json
  | .plain, n => .int n
  | .long, n => .obj [(bytes "long", .int n)]

/-- What a field holds, if it is there and not null. -/
def carried (record : Json) : VersionField → Option Json
  | .sourceLsn => ((record.member (bytes "source")).filter Json.isObject).bind
      (fun src => src.nonNull (bytes "lsn"))
  | .sourceTsMs => ((record.member (bytes "source")).filter Json.isObject).bind
      (fun src => src.nonNull (bytes "ts_ms"))
  | .tsMs => record.nonNull (bytes "ts_ms")

/-- The record says how new it is in this field and in no other. -/
def OnlyVersion (record : Json) (f : VersionField) (v : Json) : Prop :=
  ∀ g, carried record g = if g = f then some v else none

theorem tsMs_nonNull (j : Json) : tsMs j = (j.nonNull (bytes "ts_ms")).bind getInt64 := by
  rw [tsMs, Json.nonNull]
  cases j.member (bytes "ts_ms") with
  | none => rfl
  | some v => cases v <;> rfl

theorem getInt64_int {n : Int} (h : inInt64 n = true) : getInt64 (.int n) = some n := by
  obtain ⟨hl, hu⟩ := (inInt64_iff n).mp h
  rw [getInt64, Int.bmod_eq_of_le] <;> omega

/-- The cascade, by what its fields hold. -/
theorem extractLsn_carried (record : Json) :
    extractLsn record =
      (((carried record .sourceLsn).bind lsnOf).orElse fun _ =>
        ((carried record .sourceTsMs).bind getInt64).orElse fun _ =>
          (carried record .tsMs).bind getInt64).getD 0 := by
  have source_time : (((record.member (bytes "source")).filter Json.isObject).bind tsMs) =
      (carried record .sourceTsMs).bind getInt64 := by
    rw [carried, Option.bind_assoc]
    exact Option.bind_congr fun src _ => tsMs_nonNull src
  rw [extractLsn, source_time, tsMs_nonNull record]
  simp only [carried, Option.bind_assoc]

section
variable {record : Json} {f : VersionField} {v : Json}

theorem OnlyVersion.own (h : OnlyVersion record f v) : carried record f = some v := by
  rw [h f, if_pos rfl]

theorem OnlyVersion.other (h : OnlyVersion record f v) {g : VersionField} (hg : g ≠ f) :
    carried record g = none := by
  rw [h g, if_neg hg]

theorem extractLsn_lsn (h : OnlyVersion record .sourceLsn v) :
    extractLsn record = (lsnOf v).getD 0 := by
  rw [extractLsn_carried, h.own, h.other (by decide), h.other (g := .tsMs) (by decide)]
  simp

/-- Both times are read alike, and neither is looked for inside a union. -/
theorem extractLsn_time (hf : f ≠ .sourceLsn) (h : OnlyVersion record f v) :
    extractLsn record = (getInt64 v).getD 0 := by
  rw [extractLsn_carried]
  cases f with
  | sourceLsn => contradiction
  | sourceTsMs =>
    rw [h.own, h.other (by decide), h.other (g := .tsMs) (by decide)]
    simp
  | tsMs =>
    rw [h.own, h.other (g := .sourceLsn) (by decide), h.other (g := .sourceTsMs) (by decide)]
    simp

/-- The version is found unless it is a time other than zero in a union's branch. -/
theorem version_found_iff {e : Encoding} {n : Int} (fits : inInt64 n = true)
    (only : OnlyVersion record f (e.json n)) :
    extractLsn record = n ↔ f = .sourceLsn ∨ e = .plain ∨ n = 0 := by
  by_cases hf : f = .sourceLsn
  · subst hf
    have hread : lsnOf (e.json n) = some n := by
      cases e with
      | plain => exact getInt64_int fits
      | long => simp [Encoding.json, lsnOf, scalarLsn, getInt64_int fits]
    rw [extractLsn_lsn only, hread]
    simp
  · rw [extractLsn_time hf only]
    cases e with
    | plain => simp [Encoding.json, getInt64_int fits]
    | long => simp [Encoding.json, getInt64, hf, eq_comm]

end

def stamped (e : Encoding) (n : Int) : Json :=
  .obj [(bytes "op", .str (bytes "d")), (bytes "ts_ms", e.json n)]

theorem stamped_only (e : Encoding) (n : Int) :
    OnlyVersion (stamped e n) .tsMs (e.json n) := by
  intro g
  cases g with
  | sourceLsn => rfl
  | sourceTsMs => rfl
  | tsMs => cases e <;> rfl

theorem version_found_plain : extractLsn (stamped .plain 5) = 5 ↔
    VersionField.tsMs = .sourceLsn ∨ Encoding.plain = .plain ∨ (5 : Int) = 0 :=
  version_found_iff (by decide) (stamped_only .plain 5)

/-- A time that `docs/SCHEMA.md` declares nullable counts as no version at all. -/
theorem union_time_lost :
    inInt64 1700000000000 = true ∧
      OnlyVersion (stamped .long 1700000000000) .tsMs (Encoding.long.json 1700000000000) ∧
      ¬ extractLsn (stamped .long 1700000000000) = 1700000000000 :=
  ⟨by decide, stamped_only _ _, by decide⟩

end CdcPipeline.Proofs.VersionFields
