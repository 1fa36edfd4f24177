import Mathlib.Data.List.Induction
import CdcPipeline.Model.Stamped
import CdcPipeline.Proofs.RecordEffect

namespace CdcPipeline.Proofs.MixedVersions

open Library Text Model Debezium RedisUpdater RedisCache ValueGuard RecordEffect

/-- Every event of the log is accepted when its turn comes. -/
def AllAccepted (now : Nat) (es : List Stamped) : Prop :=
  ∀ before e, before ++ [e] <+: es → e.accepted (Stamped.deliverAll now before) = true

/-- The order's key holds what its last event left. -/
def LastCached (now : Nat) (log : StampedLog) : Prop :=
  ∀ e, log.events.getLast? = some e →
    (Stamped.deliverAll now log.events).get (redisKey log.id) = imageText e.image

/-- An event's number as the script compares it: cut to 64 bits and read as a double. -/
def reading (e : Stamped) : ℚ := Double.roundDouble (e.stamp.version : ℚ)

theorem getInt64_number {v : Json} (h : Stamp.isNumber v = true) :
    ∃ n, Record.getInt64 v = some n := by
  cases v with
  | int n => exact ⟨_, rfl⟩
  | float x => exact ⟨_, rfl⟩
  | _ => contradiction

theorem getInt64_other {v : Json} (h : Stamp.isNumber v = false) : Record.getInt64 v = none := by
  cases v with
  | int n => contradiction
  | float x => contradiction
  | _ => rfl

theorem lsnOf_number {v : Json} (h : Stamp.isNumber v = true) :
    Record.lsnOf v = Record.getInt64 v := by
  cases v with
  | int n => rfl
  | float x => rfl
  | _ => contradiction

theorem nonNull_number {j v : Json} {k : Bytes} (hv : j.member k = some v)
    (h : Stamp.isNumber v = true) : j.nonNull k = some v := by
  rw [Json.nonNull, hv]
  cases v with
  | int n => rfl
  | float x => rfl
  | _ => contradiction

/-- `ExtractLSN` finds the number the event is ordered by. -/
theorem extractLsn_carried {record : Json} {s : Stamp} (h : s.Carried record) :
    Record.extractLsn record = s.version := by
  have object_source : ∀ {src : Json}, record.member (bytes "source") = some src →
      src.isObject = true → (record.member (bytes "source")).filter Json.isObject = some src := by
    intro src source object
    rw [source, Option.filter_some, object, if_pos rfl]
  cases h with
  | lsn source object lsn number =>
    obtain ⟨n, hn⟩ := getInt64_number number
    simp only [Record.extractLsn, object_source source object, Option.bind_some,
      nonNull_number lsn number, lsnOf_number number, Stamp.version, Stamp.number, hn,
      Option.orElse_some, Option.getD_some]
  | sourceTime source object noLsn ts number =>
    obtain ⟨n, hn⟩ := getInt64_number number
    simp only [Record.extractLsn, object_source source object, Option.bind_some, noLsn,
      Option.bind_none, Record.tsMs, ts, Stamp.version, Stamp.number, hn, Option.orElse_none,
      Option.orElse_some, Option.getD_some]
  | time noLsn noTs ts number =>
    obtain ⟨n, hn⟩ := getInt64_number number
    have hown : Record.tsMs record = some n := by rw [Record.tsMs, ts, Option.bind_some, hn]
    rw [Stamp.version, Stamp.number, hn, Record.extractLsn, hown]
    cases hsource : (record.member (bytes "source")).filter Json.isObject with
    | none => rfl
    | some src =>
      have hmem := (Option.filter_eq_some_iff.mp hsource).1
      have hts : Record.tsMs src = none :=
        Option.bind_eq_none_iff.mpr fun w hw => getInt64_other (noTs src w hmem hw)
      simp only [Option.bind_some, noLsn src hmem, Option.bind_none, hts, Option.orElse_none,
        Option.getD_some]

def execution (e : Stamped) : Execution := ⟨e.id, e.stamp.version, imageText e.image⟩

theorem effect_stamped (e : Stamped) : effect e.record e.key = .ok (some (execution e)) := by
  rw [effect_shape e.uuid e.shape, extractLsn_carried e.carried]
  rfl

theorem accepted_eq (e : Stamped) (r : Redis) : e.accepted r = !refuses r (execution e) := by
  rw [Bool.eq_iff_iff, Stamped.accepted, accepts_iff, effect_stamped]
  simp

theorem deliver_accepted {e : Stamped} {r : Redis} (h : e.accepted r = true) :
    Stamped.deliver r e = written (execution e) r := by
  have hr : refuses r (execution e) = false := by
    rw [accepted_eq] at h
    simpa using h
  rw [Stamped.deliver, process_redis, effect_stamped]
  simp [exec_command, hr]

theorem deliver_refused {e : Stamped} {r : Redis} (h : e.accepted r = false) :
    Stamped.deliver r e = r := by
  have hr : refuses r (execution e) = true := by
    rw [accepted_eq] at h
    simpa using h
  rw [Stamped.deliver, process_redis, effect_stamped]
  simp [exec_command, hr]

theorem tonumber_int (n : Int) :
    Redis.tonumber (intText n) = some (Double.roundDouble (n : ℚ)) := by
  rw [Redis.tonumber, readDecimal_intText, Option.map_some]

theorem get_written_lsn (x : Execution) (r : Redis) :
    (written x r).get (lsnKey x.id) = some (intText x.lsn) := by
  unfold written
  exact Redis.get_setEx_self _ _ _ _

theorem get_written_value (x : Execution) (r : Redis) :
    (written x r).get (redisKey x.id) = x.value := by
  unfold written
  rw [Redis.get_setEx_ne _ _ _ redisKey_ne_own]
  cases x.value with
  | some v => exact Redis.get_setEx_self _ _ _ _
  | none => exact Redis.get_del_self _ _

/-- Behind an accepted event, the next is accepted if its reading is greater. -/
theorem accepted_behind {a b : Stamped} (h : b.id = a.id) (r : Redis) :
    b.accepted (written (execution a) r) = true ↔ reading a < reading b := by
  have hget : (written (execution a) r).get (lsnKey (execution b).id) =
      some (intText a.stamp.version) := by
    rw [show (execution b).id = (execution a).id from h]
    exact get_written_lsn (execution a) r
  rw [accepted_eq, refuses, hget, Redis.stale, Option.bind_some, tonumber_int,
    show (execution b).lsn = b.stamp.version from rfl, tonumber_int]
  simp [reading]

theorem accepted_first (now : Nat) (e : Stamped) : e.accepted (Redis.empty now) = true := by
  rw [accepted_eq]
  rfl

theorem deliverAll_snoc (now : Nat) (es : List Stamped) (e : Stamped) :
    Stamped.deliverAll now (es ++ [e]) = Stamped.deliver (Stamped.deliverAll now es) e := by
  rw [Stamped.deliverAll, List.foldl_append]
  rfl

theorem allAccepted_snoc (now : Nat) (es : List Stamped) (e : Stamped) :
    AllAccepted now (es ++ [e]) ↔
      AllAccepted now es ∧ e.accepted (Stamped.deliverAll now es) = true := by
  refine ⟨fun h => ⟨fun before x hp => ?_, ?_⟩, fun ⟨h, he⟩ before x hp => ?_⟩
  · exact h before x (hp.trans (List.prefix_append _ _))
  · exact h es e (List.prefix_refl _)
  · rcases List.prefix_concat_iff.mp hp with heq | hp
    · obtain ⟨rfl, hlast⟩ := List.append_inj' heq rfl
      rw [(List.cons.inj hlast).1]
      exact he
    · exact h before x hp

/-- Once all were accepted, Redis shows what the last one wrote. -/
theorem deliverAll_last {now : Nat} {es : List Stamped} (h : AllAccepted now es) {e : Stamped}
    (he : es.getLast? = some e) : ∃ r, Stamped.deliverAll now es = written (execution e) r := by
  obtain ⟨before, rfl⟩ := List.getLast?_eq_some_iff.mp he
  rw [deliverAll_snoc, deliver_accepted ((allAccepted_snoc now before e).mp h).2]
  exact ⟨_, rfl⟩

theorem allAccepted_iff {id : Bytes} (now : Nat) (es : List Stamped) (h : ∀ e ∈ es, e.id = id) :
    AllAccepted now es ↔ es.Pairwise (fun a b => reading a < reading b) := by
  induction es using List.reverseRecOn with
  | nil =>
    refine ⟨fun _ => .nil, fun _ before e hp => ?_⟩
    simp at hp
  | append_singleton es e ih =>
    have hes : ∀ a ∈ es, a.id = id := fun a ha => h a (List.mem_append_left _ ha)
    rw [allAccepted_snoc, ih hes, List.pairwise_append]
    simp only [List.pairwise_singleton, List.mem_singleton, forall_eq, true_and]
    refine and_congr_right fun hp => ?_
    rcases hlast : es.getLast? with _ | a
    · obtain rfl := List.getLast?_eq_none_iff.mp hlast
      exact ⟨fun _ a ha => absurd ha List.not_mem_nil, fun _ => accepted_first now e⟩
    · obtain ⟨r, hr⟩ := deliverAll_last ((ih hes).mpr hp) hlast
      obtain ⟨before, rfl⟩ := List.getLast?_eq_some_iff.mp hlast
      have hid : e.id = a.id := by rw [h e (by simp), hes a (by simp)]
      rw [hr, accepted_behind hid]
      refine ⟨fun hlt b hb => ?_, fun hall => hall a (by simp)⟩
      rcases List.mem_append.mp hb with hb | hb
      · exact ((List.pairwise_append.mp hp).2.2 b hb a (by simp)).trans hlt
      · rw [List.mem_singleton.mp hb]
        exact hlt

/-- A log is accepted as a whole, and the cache ends as its last event leaves it, exactly
when every event's reading is greater than those before it. -/
theorem log_accepted_iff (now : Nat) (log : StampedLog) :
    (AllAccepted now log.events ∧ LastCached now log) ↔
      log.events.Pairwise (fun a b => reading a < reading b) := by
  rw [← allAccepted_iff now log.events log.ofOrder]
  refine ⟨fun h => h.1, fun h => ⟨h, fun e he => ?_⟩⟩
  obtain ⟨r, hr⟩ := deliverAll_last h he
  have hid : e.id = log.id := log.ofOrder e (List.mem_of_getLast? he)
  rw [hr, ← hid]
  exact get_written_value (execution e) r

def sampleRow (status : Bytes) : Json :=
  .obj [(bytes "id", .str sampleId), (bytes "status", .str status)]

/-- An insert that came without an LSN, as the database's clock showed its milliseconds. -/
def timed : Stamped where
  record := .obj [(bytes "after", sampleRow (bytes "CREATED")),
    (bytes "source", .obj [(bytes "ts_ms", .int 1700000000000)])]
  key := []
  offset := 0
  id := sampleId
  image := some (sampleRow (bytes "CREATED"))
  stamp := .sourceTime (.int 1700000000000)
  uuid := sampleId_uuid
  shape := .upsert ⟨rfl, rfl, by decide⟩ .plain rfl
  carried := .sourceTime rfl rfl rfl rfl rfl

/-- The update that followed it, with its LSN. -/
def sequenced : Stamped where
  record := .obj [(bytes "after", sampleRow (bytes "PAID")),
    (bytes "source", .obj [(bytes "lsn", .int 25000000)])]
  key := []
  offset := 1
  id := sampleId
  image := some (sampleRow (bytes "PAID"))
  stamp := .lsn (.int 25000000)
  uuid := sampleId_uuid
  shape := .upsert ⟨rfl, rfl, by decide⟩ .plain rfl
  carried := .lsn rfl rfl rfl rfl

def mixedLog : StampedLog where
  id := sampleId
  events := [timed, sequenced]
  ofOrder := by
    intro e he
    simp only [List.mem_cons, List.not_mem_nil, or_false] at he
    rcases he with rfl | rfl
    · rfl
    · rfl
  lsns := List.pairwise_singleton _ _
  times := List.pairwise_singleton _ _

theorem reading_small {e : Stamped} (h : |e.stamp.version| < 2 ^ 53) :
    reading e = e.stamp.version := Double.roundDouble_int h

theorem reading_lt : ¬ reading timed < reading sequenced := by
  have ht : timed.stamp.version = 1700000000000 := by decide
  have hs : sequenced.stamp.version = 25000000 := by decide
  rw [reading_small (by rw [ht]; norm_num), reading_small (by rw [hs]; norm_num), ht, hs]
  norm_num

theorem texts_differ : imageText timed.image ≠ imageText sequenced.image := by decide +kernel

/-- The update is taken for older than the insert, which stays in the cache. -/
theorem update_ignored : ¬ AllAccepted 0 mixedLog.events ∧ ¬ LastCached 0 mixedLog := by
  have hid : sequenced.id = timed.id := rfl
  have hrefused : sequenced.accepted (written (execution timed) (Redis.empty 0)) = false := by
    rw [Bool.eq_false_iff, Ne, accepted_behind hid]
    exact reading_lt
  have hfirst : Stamped.deliverAll 0 [timed] = written (execution timed) (Redis.empty 0) :=
    deliver_accepted (accepted_first 0 timed)
  refine ⟨fun h => ?_, fun h => ?_⟩
  · have hall := h [timed] sequenced (List.prefix_refl _)
    rw [hfirst, hrefused] at hall
    contradiction
  · have hlast := h sequenced rfl
    rw [show mixedLog.events = [timed] ++ [sequenced] from rfl, deliverAll_snoc, hfirst,
      deliver_refused hrefused] at hlast
    exact texts_differ ((get_written_value (execution timed) _).symm.trans hlast)

end CdcPipeline.Proofs.MixedVersions
