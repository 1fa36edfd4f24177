import CdcPipeline.Proofs.MixedVersions

namespace CdcPipeline.Proofs.GuardExact

open Library Text Model Record RedisUpdater RedisCache ValueGuard MixedVersions

/-- The order's script, upsert or delete, takes the event. -/
def Accepted (x : Execution) (r : Redis) : Prop := (Redis.exec x.command r).1 = .integer 1

theorem accepted_unless {x : Execution} {r : Redis} : Accepted x r ↔ refuses r x = false := by
  rw [Accepted, exec_command]
  cases refuses r x <;> simp

/-- The scripts compare the doubles of the two versions. -/
theorem stale_int (a b : Int) :
    Redis.stale (some (intText a)) (intText b) =
      decide (Double.roundDouble (b : ℚ) ≤ Double.roundDouble (a : ℚ)) := by
  simp only [Redis.stale, Option.bind_some, tonumber_int]

section
variable {x : Execution} {r : Redis} {a : Int}

theorem accepted_iff (stored : r.get (lsnKey x.id) = some (intText a)) :
    Accepted x r ↔ Double.roundDouble (a : ℚ) < Double.roundDouble (x.lsn : ℚ) := by
  rw [accepted_unless, refuses, stored, stale_int]
  simp

/-- What is accepted is newer. -/
theorem accepted_newer (stored : r.get (lsnKey x.id) = some (intText a)) (h : Accepted x r) :
    a < x.lsn := by
  have hlt := Double.lt_of_roundDouble_lt ((accepted_iff stored).mp h)
  exact_mod_cast hlt

/-- What is newer is accepted once the versions are far enough apart. -/
theorem newer_accepted (stored : r.get (lsnKey x.id) = some (intText a))
    (ha : inInt64 a = true) (hb : inInt64 x.lsn = true) (h : a + 2 ^ 11 < x.lsn) :
    Accepted x r := by
  have abs_of : ∀ {n : Int}, inInt64 n = true → |n| ≤ 2 ^ 63 := by
    intro n hn
    obtain ⟨hl, hu⟩ := (inInt64_iff n).mp hn
    exact abs_le.mpr ⟨hl, hu.le⟩
  exact (accepted_iff stored).mpr (Double.roundDouble_lt_apart (abs_of ha) (abs_of hb) h)

theorem accepted_small (stored : r.get (lsnKey x.id) = some (intText a)) (ha : |a| < 2 ^ 53)
    (hb : |x.lsn| < 2 ^ 53) : Accepted x r ↔ a < x.lsn := by
  rw [accepted_iff stored, Double.roundDouble_int ha, Double.roundDouble_int hb, Int.cast_lt]

/-- The guard is exact on two versions unless the incoming one is newer and both are
read as one double. -/
theorem guard_exact_iff (stored : r.get (lsnKey x.id) = some (intText a)) :
    (Accepted x r ↔ a < x.lsn) ↔
      (x.lsn ≤ a ∨ Double.roundDouble (a : ℚ) ≠ Double.roundDouble (x.lsn : ℚ)) := by
  rw [accepted_iff stored, Double.roundDouble_lt_iff, Int.cast_lt]
  constructor
  · intro h
    rcases Int.lt_or_le a x.lsn with hlt | hle
    · exact .inr (h.mpr hlt).2
    · exact .inl hle
  · rintro (hle | hne)
    · exact ⟨fun h => h.1, fun h => absurd h (Int.not_lt.mpr hle)⟩
    · exact ⟨fun h => h.1, fun h => ⟨h, hne⟩⟩

end

/-- An order deleted at a version. -/
def stored (a : Int) : Redis := written ⟨bytes "a", a, none⟩ (Redis.empty 0)

theorem get_stored (a : Int) : (stored a).get (lsnKey (bytes "a")) = some (intText a) :=
  get_written_lsn ⟨bytes "a", a, none⟩ (Redis.empty 0)

theorem guard_exact_upsert :
    (Accepted ⟨bytes "a", 8, some (bytes "1")⟩ (stored 7) ↔ (7 : Int) < 8) ↔
      ((8 : Int) ≤ 7 ∨ Double.roundDouble ((7 : Int) : ℚ) ≠ Double.roundDouble ((8 : Int) : ℚ)) :=
  guard_exact_iff (get_stored 7)

/-- Neither script takes the version that follows `2 ^ 53`. -/
theorem next_version_ignored :
    ¬ (Accepted ⟨bytes "a", 2 ^ 53 + 1, some (bytes "1")⟩ (stored (2 ^ 53)) ↔
        (2 ^ 53 : Int) < 2 ^ 53 + 1) ∧
      ¬ (Accepted ⟨bytes "a", 2 ^ 53 + 1, none⟩ (stored (2 ^ 53)) ↔
        (2 ^ 53 : Int) < 2 ^ 53 + 1) := by
  have one_double : Double.roundDouble ((2 ^ 53 : Int) : ℚ) =
      Double.roundDouble ((2 ^ 53 + 1 : Int) : ℚ) := by decide +kernel
  have hlt : (2 ^ 53 : Int) < 2 ^ 53 + 1 := Int.lt_succ _
  have refused : ∀ v, ¬ Accepted ⟨bytes "a", 2 ^ 53 + 1, v⟩ (stored (2 ^ 53)) := by
    intro v h
    have hround := (accepted_iff (x := ⟨bytes "a", 2 ^ 53 + 1, v⟩) (get_stored _)).mp h
    exact absurd one_double hround.ne
  exact ⟨fun h => refused _ (h.mpr hlt), fun h => refused _ (h.mpr hlt)⟩

end CdcPipeline.Proofs.GuardExact
