import CdcPipeline.Library.Latch
import CdcPipeline.Proofs.RedisConvergence

namespace CdcPipeline.Proofs.FlattenedRecords

open Library Text Model RedisUpdater

/-- An order record without an envelope: its id is at the top, and nothing says how new
it is. Like everything a parser returns it is UTF-8. -/
structure Flattened where
  record : Json
  utf8 : record.utf8 = true
  identified : (record.contains (bytes "order_id") || record.contains (bytes "id")) = true
  noAfter : record.contains (bytes "after") = false
  noSource : record.contains (bytes "source") = false
  noTsMs : record.contains (bytes "ts_ms") = false

def Flattened.row (f : Flattened) : Json := Record.unwrapUnion f.record

structure Delivery where
  flat : Flattened
  key : Bytes
  offset : Nat

def Delivery.image (d : Delivery) : Option Bytes := d.flat.row.dump.toOption

/-- The order a record belongs to, if any. -/
def Delivery.order (d : Delivery) : Option Bytes :=
  (Record.orderId d.flat.row d.key).toOption.filter (· ≠ [])

def deliver (r : Redis) (d : Delivery) : Redis :=
  ((processRecord d.flat.record d.key d.offset).run RedisConvergence.serve r).2

def history (now : Nat) (ds : List Delivery) : Redis := ds.foldl deliver (Redis.empty now)

def firstOf (o : Bytes) (ds : List Delivery) : Option Delivery :=
  ds.find? (fun d => decide (d.order = some o))

def lastOf (o : Bytes) (ds : List Delivery) : Option Delivery := firstOf o ds.reverse

/-- Every order's key holds its last record. -/
def LastCached (now : Nat) (ds : List Delivery) : Prop :=
  ∀ o d, lastOf o ds = some d → (history now ds).get (redisKey o) = d.image

theorem not_contains {j : Json} {k : Bytes} (h : j.contains k = false) : j.member k = none := by
  simpa [Json.contains] using h

theorem object_of_contains {j : Json} {k : Bytes} (h : j.contains k = true) :
    ∃ ms, j = .obj ms := by
  cases j with
  | obj ms => exact ⟨ms, rfl⟩
  | _ => simp [Json.contains, Json.member] at h

/-- Unwrapping an object gives an object, and no text that was not there. -/
theorem unwrap_object {ms : List (Bytes × Json)} (h : Json.utf8Members ms = true) :
    ∃ ms', Record.unwrapUnion (.obj ms) = .obj ms' ∧ Json.utf8Members ms' = true := by
  have object : ∀ {v : Json}, v.isObject = true → v.utf8 = true →
      ∃ ms', v = .obj ms' ∧ Json.utf8Members ms' = true := by
    intro v ho hu
    cases v with
    | obj ms' => exact ⟨ms', rfl, hu⟩
    | _ => contradiction
  unfold Record.unwrapUnion
  simp only
  cases hv : (ms.lookup (bytes "Value")).filter Json.isObject with
  | some row =>
    obtain ⟨hl, ho⟩ := Option.filter_eq_some_iff.mp hv
    exact object ho (Json.utf8Members_lookup h hl)
  | none =>
    simp only
    split
    · rename_i k v
      simp only [Json.utf8Members, Bool.and_true, Bool.and_eq_true] at h
      by_cases hb : (v.isObject && k != bytes "id") = true
      · rw [if_pos hb]
        exact object (Bool.and_eq_true_iff.mp hb).1 h.2
      · rw [if_neg hb]
        exact ⟨_, rfl, by simp [Json.utf8Members, h]⟩
    · exact ⟨ms, rfl, h⟩

namespace Flattened

variable (f : Flattened)

theorem row_object : ∃ ms, f.row = .obj ms ∧ Json.utf8Members ms = true := by
  have hobj : ∃ ms, f.record = .obj ms := by
    rcases Bool.or_eq_true_iff.mp f.identified with h | h
    · exact object_of_contains h
    · exact object_of_contains h
  obtain ⟨ms, hms⟩ := hobj
  have hutf8 := f.utf8
  rw [hms] at hutf8
  obtain ⟨ms', hrow, h⟩ := unwrap_object hutf8
  exact ⟨ms', by rw [Flattened.row, hms, hrow], h⟩

theorem orderData : Record.orderData f.record = some f.row := by
  have hafter : f.record.nonNull (bytes "after") = none := by
    rw [Json.nonNull, not_contains f.noAfter]
    rfl
  rw [Record.orderData, Record.selectRow, hafter]
  simp only [f.identified, if_true]
  rfl

theorem extractLsn : Record.extractLsn f.record = 0 := by
  simp [Record.extractLsn, Record.tsMs, not_contains f.noSource, not_contains f.noTsMs]

/-- The row's text begins as no number does. -/
theorem dump_row : ∃ t, f.row.dump = .ok t ∧ Redis.tonumber t = none := by
  obtain ⟨ms, hrow, hutf8⟩ := f.row_object
  obtain ⟨body, hbody⟩ := (Json.dumpMembers_ok_iff ms).mpr hutf8
  refine ⟨0x7B :: body ++ [0x7D], by rw [hrow, Json.dump, hbody]; rfl, ?_⟩
  simp [Redis.tonumber, readDecimal, splitSign, isDigit]

theorem orderId_ok (key : Bytes) : ∃ id, Record.orderId f.row key = .ok id := by
  obtain ⟨ms, hrow, hutf8⟩ := f.row_object
  have hrow8 : f.row.utf8 = true := by rw [hrow]; exact hutf8
  have text : ∀ {k v}, f.row.nonNull k = some v → ∃ t, Record.textOf v = .ok t := by
    intro k v hv
    have h8 := Json.utf8_nonNull hrow8 hv
    cases v with
    | str s => exact ⟨s, rfl⟩
    | _ => exact (Json.dump_ok_iff _).mpr h8
  have hid : ∃ t, Record.idText f.row = .ok t := by
    unfold Record.idText
    cases hv : f.row.nonNull (bytes "id") with
    | some v => exact text hv
    | none =>
      cases hv : f.row.nonNull (bytes "order_id") with
      | some v => exact text hv
      | none => exact ⟨[], rfl⟩
  obtain ⟨t, ht⟩ := hid
  exact ⟨if t = [] then key else t, by rw [Record.orderId, ht]; rfl⟩

end Flattened

/-- A text that Redis does not read as a number. -/
def Doc : Type := { t : Bytes // Redis.tonumber t = none }

def nextOrder (o : Bytes) : Bytes := o ++ bytes ":lsn"

/-- The version every flattened record comes with. -/
def noLsn : Bytes := intText 0

/-- What a delivery writes, and for which order. -/
def entry (d : Delivery) : Option (Bytes × Doc) :=
  match d.order with
  | none => none
  | some o => match d.image with
    | none => none
    | some t => if h : Redis.tonumber t = none then some (o, ⟨t, h⟩) else none

def stored : Latch.Slot Doc → Option Bytes
  | .empty => none
  | .mark => some noLsn
  | .value t => some t.1

def Stores (r : Redis) (s : Bytes → Latch.Slot Doc) : Prop :=
  ∀ o, r.get (redisKey o) = stored (s o)

theorem image_some (d : Delivery) : ∃ t, d.image = some t ∧ Redis.tonumber t = none := by
  obtain ⟨t, ht, hnum⟩ := d.flat.dump_row
  exact ⟨t, by rw [Delivery.image, ht]; rfl, hnum⟩

theorem entry_of_order {d : Delivery} {o : Bytes} (h : d.order = some o) :
    ∃ t, entry d = some (o, t) ∧ d.image = some t.1 := by
  obtain ⟨t, ht, hnum⟩ := image_some d
  exact ⟨⟨t, hnum⟩, by simp [entry, h, ht, hnum], ht⟩

theorem order_of_entry {d : Delivery} {x : Bytes × Doc} (h : entry d = some x) :
    d.order = some x.1 := by
  cases ho : d.order with
  | none => simp [entry, ho] at h
  | some o =>
    obtain ⟨t, he, -⟩ := entry_of_order ho
    rw [he] at h
    rw [← Option.some.inj h]

theorem entry_none {d : Delivery} (h : d.order = none) : entry d = none := by
  simp [entry, h]

theorem stored_value {c : Latch.Slot Doc} {t : Doc} : stored c = some t.1 ↔ c = .value t := by
  cases c with
  | empty => exact ⟨nofun, nofun⟩
  | mark =>
    refine ⟨fun h => ?_, nofun⟩
    have hnum := t.2
    rw [← Option.some.inj h, noLsn, Redis.tonumber_intText (by decide)] at hnum
    contradiction
  | value u =>
    refine ⟨fun h => congrArg Latch.Slot.value (Subtype.ext (Option.some.inj h)), fun h => ?_⟩
    rw [Latch.Slot.value.inj h]
    rfl

theorem lsnKey_next (o : Bytes) : redisKey o ++ bytes ":lsn" = redisKey (nextOrder o) :=
  List.append_assoc _ _ _

/-- The guard lets a record through unless the version it left before is there. -/
theorem stale_stored (c : Latch.Slot Doc) :
    Redis.stale (stored c) noLsn = true ↔ c = .mark := by
  cases c with
  | empty => simp [stored, Redis.stale_none]
  | mark =>
    simp only [stored, noLsn, iff_true]
    rw [Redis.stale_intText (by decide) (by decide)]
    rfl
  | value t => simp [stored, Redis.stale, t.2]

theorem exec_stores {r : Redis} {s : Bytes → Latch.Slot Doc} (h : Stores r s) (o : Bytes)
    (t : Doc) :
    Stores (Redis.exec (upsertCommand o t.1 0) r).2 (Latch.write nextOrder s (o, t)) ∧
      ((Redis.exec (upsertCommand o t.1 0) r).1 = .integer 0 ∨
        (Redis.exec (upsertCommand o t.1 0) r).1 = .integer 1) := by
  have hexec : Redis.exec (upsertCommand o t.1 0) r =
      if Redis.stale (r.get (redisKey (nextOrder o))) noLsn = true then (.integer 0, r)
      else (.integer 1,
        (r.setEx (redisKey o) t.1 86400).setEx (redisKey (nextOrder o)) noLsn 86400) := by
    rw [RedisCache.exec_upsert, ← lsnKey_next]
    rfl
  rw [hexec, h (nextOrder o)]
  by_cases hs : s (nextOrder o) = .mark
  · rw [if_pos ((stale_stored _).mpr hs), Latch.write_marked hs]
    exact ⟨h, Or.inl rfl⟩
  · rw [if_neg (fun he => hs ((stale_stored _).mp he)), Latch.write_free hs]
    refine ⟨fun o' => ?_, Or.inr rfl⟩
    by_cases hn : o' = nextOrder o
    · rw [hn, Function.update_self, Redis.get_setEx_self]
      rfl
    · have hkey := fun he => hn (RedisCache.redisKey_inj he)
      rw [Function.update_of_ne hn, Redis.get_setEx_ne _ _ _ hkey]
      by_cases ho : o' = o
      · rw [ho, Function.update_self, Redis.get_setEx_self]
        rfl
      · have hkey := fun he => ho (RedisCache.redisKey_inj he)
        rw [Function.update_of_ne ho, Redis.get_setEx_ne _ _ _ hkey]
        exact h o'

/-- What is left of a delivery once its command was answered changes nothing. -/
theorem run_rest (d : Delivery) (o : Bytes) (n : Int) (r : Redis) :
    (((RedisProg.checkReply (bytes "Redis upsert") (some (.integer n))).bind fun reply =>
      if reply = .integer 0 then RedisProg.log (.redisStaleEventIgnored o 0 d.offset)
      else (Prog.ofExcept (Record.stringValue d.flat.row (bytes "status") (bytes "UNKNOWN"))).bind
        fun status => RedisProg.log (.redisUpdated o status 0 d.offset)).run
      RedisConvergence.serve r).2 = r := by
  simp only [RedisProg.checkReply, Prog.ret_bind]
  split
  · rfl
  · cases Record.stringValue d.flat.row (bytes "status") (bytes "UNKNOWN") with
    | ok status => rfl
    | error what => rfl

theorem deliver_none {d : Delivery} (h : d.order = none) (r : Redis) : deliver r d = r := by
  obtain ⟨id, hid⟩ := d.flat.orderId_ok d.key
  have hempty : id = [] := by
    by_contra hne
    simp [Delivery.order, hid, Except.toOption, hne] at h
  subst hempty
  simp only [deliver, processRecord, d.flat.orderData, processUpsert, hid, Prog.bind_eq,
    Prog.ofExcept_ok, Prog.ret_bind, if_true]
  rfl

theorem deliver_some {d : Delivery} {o : Bytes} (h : d.order = some o) {t : Doc}
    (ht : d.image = some t.1) {r : Redis} {s : Bytes → Latch.Slot Doc} (hs : Stores r s) :
    Stores (deliver r d) (Latch.write nextOrder s (o, t)) := by
  obtain ⟨id, hid⟩ := d.flat.orderId_ok d.key
  obtain ⟨hne, hido⟩ : id ≠ [] ∧ id = o := by
    simpa [Delivery.order, hid, Except.toOption, Option.filter_some] using h
  subst hido
  have hdump : d.flat.row.dump = .ok t.1 := by
    obtain ⟨t', ht', -⟩ := d.flat.dump_row
    rw [Delivery.image, ht'] at ht
    rw [ht', Option.some.inj ht]
  obtain ⟨hstores, hreply⟩ := exec_stores hs id t
  have hrun : deliver r d = (Redis.exec (upsertCommand id t.1 0) r).2 := by
    simp only [deliver, processRecord, d.flat.orderData, processUpsert, hid, d.flat.extractLsn,
      hdump, Prog.bind_eq, Prog.ofExcept_ok, Prog.ret_bind, hne, if_false]
    rcases hreply with hr | hr
    · exact (congrArg Prod.snd (by rw [← hr]; rfl)).trans (run_rest d id 0 _)
    · exact (congrArg Prod.snd (by rw [← hr]; rfl)).trans (run_rest d id 1 _)
  rw [hrun]
  exact hstores

/-- The history of a log is the run of what it writes. -/
theorem history_stores (now : Nat) (ds : List Delivery) :
    Stores (history now ds) (Latch.run nextOrder (ds.filterMap entry)) := by
  induction ds using List.reverseRecOn with
  | nil => exact fun _ => rfl
  | append_singleton ds d ih =>
    have hstep : history now (ds ++ [d]) = deliver (history now ds) d := by
      simp [history]
    rw [hstep, List.filterMap_append]
    cases ho : d.order with
    | none =>
      rw [deliver_none ho, List.filterMap_cons, entry_none ho, List.filterMap_nil, List.append_nil]
      exact ih
    | some o =>
      obtain ⟨t, he, ht⟩ := entry_of_order ho
      rw [List.filterMap_cons, he, List.filterMap_nil, Latch.run_snoc]
      exact deliver_some ho ht ih

theorem nextOrder_injective : Function.Injective nextOrder :=
  fun _ _ h => List.append_cancel_right h

theorem first_entry (o : Bytes) (ds : List Delivery) :
    (Latch.first o (ds.filterMap entry)).map Subtype.val = (firstOf o ds).bind Delivery.image := by
  induction ds with
  | nil => rfl
  | cons d ds ih =>
    by_cases ho : d.order = some o
    · obtain ⟨t, he, ht⟩ := entry_of_order ho
      have hfirst : firstOf o (d :: ds) = some d := by simp [firstOf, ho]
      rw [hfirst, Option.bind_some, ht, List.filterMap_cons, he]
      simp only [Latch.first, List.find?_cons, decide_true, Option.map_some]
      rfl
    · have hfirst : firstOf o (d :: ds) = firstOf o ds := by simp [firstOf, ho]
      rw [hfirst, ← ih]
      cases hd : d.order with
      | none => rw [List.filterMap_cons, entry_none hd]
      | some o' =>
        obtain ⟨t, he, -⟩ := entry_of_order hd
        have hne : o' ≠ o := fun h => ho (h ▸ hd)
        rw [List.filterMap_cons, he]
        simp [Latch.first, hne]

theorem last_entry (o : Bytes) (ds : List Delivery) :
    (Latch.last o (ds.filterMap entry)).map Subtype.val = (lastOf o ds).bind Delivery.image := by
  rw [Latch.last, ← List.filterMap_reverse, first_entry]
  rfl

/-- No record of the order comes after one of the order whose id is its own and `:lsn`. -/
def Undisturbed (o : Bytes) (ds : List Delivery) : Prop :=
  ds.Pairwise (fun d d' => ¬ (d.order = some (o ++ bytes ":lsn") ∧ d'.order = some o))

theorem precedes_entry (o : Bytes) (ds : List Delivery) :
    Latch.Precedes nextOrder o (ds.filterMap entry) ↔ Undisturbed o ds := by
  unfold Latch.Precedes Undisturbed
  rw [List.pairwise_filterMap]
  have hpair : ∀ d d' : Delivery, (∀ x, entry d = some x → ∀ y, entry d' = some y →
      ¬ (x.1 = nextOrder o ∧ y.1 = o)) ↔
      ¬ (d.order = some (o ++ bytes ":lsn") ∧ d'.order = some o) := by
    intro d d'
    refine ⟨fun h ⟨hd, hd'⟩ => ?_, fun h x hx y hy ⟨hd, hd'⟩ => h ⟨?_, ?_⟩⟩
    · obtain ⟨t, he, -⟩ := entry_of_order hd
      obtain ⟨t', he', -⟩ := entry_of_order hd'
      exact h _ he _ he' ⟨rfl, rfl⟩
    · exact (order_of_entry hx).trans (congrArg some hd)
    · exact (order_of_entry hy).trans (congrArg some hd')
  simp only [hpair]

/-- The last record of every order is the one that is cached exactly when its first is
no different, and none comes after a record of the order next to it. -/
theorem last_cached_iff (now : Nat) (ds : List Delivery) :
    LastCached now ds ↔
      (∀ o, (firstOf o ds).bind Delivery.image = (lastOf o ds).bind Delivery.image) ∧
        ∀ o, Undisturbed o ds := by
  have hlatch := Latch.run_last_iff nextOrder_injective List.length
    (fun o => by simp [nextOrder, bytes]) (ds.filterMap entry)
  have hstores := history_stores now ds
  have hcached : LastCached now ds ↔ ∀ o t, Latch.last o (ds.filterMap entry) = some t →
      Latch.run nextOrder (ds.filterMap entry) o = .value t := by
    refine ⟨fun h o t ht => ?_, fun h o d hd => ?_⟩
    · have hlast := last_entry o ds
      rw [ht] at hlast
      obtain ⟨d, hd, himage⟩ := Option.bind_eq_some_iff.mp hlast.symm
      exact stored_value.mp ((hstores o).symm.trans ((h o d hd).trans himage))
    · obtain ⟨t, ht, hnum⟩ := image_some d
      have hlast := last_entry o ds
      rw [hd, Option.bind_some, ht] at hlast
      obtain ⟨u, hu, hval⟩ := Option.map_eq_some_iff.mp hlast
      rw [hstores o, h o u hu, ht, ← hval]
      rfl
  have hsame : (∀ o, Latch.first o (ds.filterMap entry) = Latch.last o (ds.filterMap entry)) ↔
      ∀ o, (firstOf o ds).bind Delivery.image = (lastOf o ds).bind Delivery.image := by
    refine forall_congr' fun o => ?_
    rw [← first_entry, ← last_entry]
    exact (Option.map_injective Subtype.val_injective).eq_iff.symm
  rw [hcached, hlatch, hsame, and_comm]
  exact and_congr_right fun _ => forall_congr' fun o => precedes_entry o ds

def sample (status : Bytes) (h : Utf8.valid status = true) : Flattened where
  record := .obj [(bytes "id", .str Debezium.sampleId), (bytes "status", .str status)]
  utf8 := by
    simp only [Json.utf8, Json.utf8Members, h]
    decide
  identified := rfl
  noAfter := rfl
  noSource := rfl
  noTsMs := rfl

def pending : Delivery := ⟨sample (bytes "PENDING") (by decide), [], 0⟩

def shipped : Delivery := ⟨sample (bytes "SHIPPED") (by decide), [], 1⟩

/-- The second record of an order is taken for a replay of the first. -/
theorem second_record_ignored : ¬ LastCached 0 [pending, shipped] := by
  intro h
  have hlast : (history 0 [pending, shipped]).get (redisKey Debezium.sampleId) = shipped.image :=
    h Debezium.sampleId shipped rfl
  have hapart : Latch.Apart nextOrder ([pending, shipped].filterMap entry) := by
    intro o
    rw [precedes_entry]
    refine List.pairwise_of_forall_mem_list fun d hd d' hd' ⟨ho, ho'⟩ => ?_
    have horder : ∀ d ∈ [pending, shipped], d.order = some Debezium.sampleId := by
      simp only [List.forall_mem_cons]
      exact ⟨rfl, rfl, fun _ h => absurd h List.not_mem_nil⟩
    obtain rfl := Option.some.inj ((horder d' hd').symm.trans ho')
    have hlength := congrArg List.length (Option.some.inj ((horder d hd).symm.trans ho))
    simp [bytes] at hlength
  obtain ⟨text, htext, -⟩ := image_some pending
  obtain ⟨t, ht, hval⟩ := Option.map_eq_some_iff.mp
    ((first_entry Debezium.sampleId [pending, shipped]).trans htext)
  have hrun := Latch.run_first nextOrder_injective
    (fun o he => by simpa [nextOrder, bytes] using congrArg List.length he) hapart ht
  have hget := history_stores 0 [pending, shipped] Debezium.sampleId
  rw [hrun, hlast] at hget
  have hsame : shipped.image = pending.image := by
    rw [hget, htext, ← hval]
    rfl
  exact absurd hsame (by decide)

end CdcPipeline.Proofs.FlattenedRecords
