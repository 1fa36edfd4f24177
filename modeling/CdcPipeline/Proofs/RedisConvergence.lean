import CdcPipeline.Proofs.RedisCache

namespace CdcPipeline.Proofs.RedisConvergence

open Library Text Versioned Model Debezium RedisUpdater RedisCache

/-- One execution of an event's script: by whom, with which key and at which offset
it was consumed does not matter. -/
structure Delivery where
  event : Event
  key : Bytes
  offset : Nat

/-- A Redis that is reachable and answers. -/
def serve : Handler RedisOp RedisAns Redis
  | .contextUsable, r => (true, r)
  | .redisConnect, r => (.ok (), r)
  | .command c, r => (some (Redis.exec c r).1, (Redis.exec c r).2)
  | .log _, r => ((), r)

def deliver (r : Redis) (d : Delivery) : Redis :=
  ((processRecord d.event.record d.key d.offset).run serve r).2

def history (now : Nat) (ds : List Delivery) : Redis := ds.foldl deliver (Redis.empty now)

theorem run_conclude (e : Event) (offset : Nat) (n : Int) (r : Redis) :
    ((conclude e offset (some (.integer n))).run serve r).2 = r := by
  unfold conclude
  cases e.image with
  | none => rfl
  | some row =>
    simp only [RedisProg.checkReply, Prog.bind_eq, Prog.ret_bind]
    split
    · rfl
    · cases Record.stringValue row (bytes "status") (bytes "UNKNOWN") with
      | ok status => rfl
      | error what => rfl

theorem deliver_eq (r : Redis) (d : Delivery) :
    deliver r d = (Redis.exec (command d.event) r).2 := by
  have hrun : deliver r d =
      ((conclude d.event d.offset (some (Redis.exec (command d.event) r).1)).run
        serve (Redis.exec (command d.event) r).2).2 := by
    rw [deliver, processRecord_event]
    rfl
  rcases exec_reply d.event r with h | h
  · rw [hrun, h, run_conclude]
  · rw [hrun, h, run_conclude]

/-- What the history offers to the order `id`. -/
def offers (id : Bytes) (ds : List Delivery) : List (Nat × Option Bytes) :=
  (ds.filter (fun d => d.event.id = id)).map (fun d => offered d.event)

/-- Whatever has been delivered, an order shows the replay of its own offers. -/
theorem foldl_shows {id : Bytes} (hid : isUuid id = true) (ds : List Delivery) {r : Redis}
    {c : Cell Nat (Option Bytes)} (h : Shows r id c) :
    Shows (ds.foldl deliver r) id (replay c (offers id ds)) := by
  induction ds generalizing r c with
  | nil => exact h
  | cons d ds ih =>
    rw [List.foldl_cons, deliver_eq]
    by_cases he : d.event.id = id
    · have hs : offers id (d :: ds) = offered d.event :: offers id ds := by simp [offers, he]
      subst he
      rw [hs]
      exact ih (exec_shows d.event h)
    · have hs : offers id (d :: ds) = offers id ds := by simp [offers, he]
      rw [hs]
      exact ih (exec_shows_ne d.event hid (Ne.symm he) h)

theorem mem_offers {id : Bytes} {ds : List Delivery} {x : Nat × Option Bytes}
    (h : x ∈ offers id ds) : ∃ d ∈ ds, d.event.id = id ∧ offered d.event = x := by
  obtain ⟨d, hd, hx⟩ := List.mem_map.mp h
  obtain ⟨hm, hid⟩ := List.mem_filter.mp hd
  exact ⟨d, hm, of_decide_eq_true hid, hx⟩

/-- Redis converges: whatever the order and the repetitions in which a set of events
is delivered, every order ends as its newest event leaves it. -/
theorem redis_converges (now : Nat) (events : List Event) (ds : List Delivery)
    (distinct : ∀ e ∈ events, ∀ e' ∈ events, e.id = e'.id → e.lsn = e'.lsn → e = e')
    (only : ∀ d ∈ ds, d.event ∈ events) (each : ∀ e ∈ events, ∃ d ∈ ds, d.event = e)
    (e : Event) (he : e ∈ events) (newest : ∀ e' ∈ events, e'.id = e.id → e'.lsn ≤ e.lsn) :
    (history now ds).get (redisKey e.id) = e.text ∧
      (history now ds).get (redisKey e.id ++ bytes ":lsn") = some (intText e.lsn) := by
  have hmem : offered e ∈ offers e.id ds := by
    obtain ⟨d, hd, rfl⟩ := each e he
    exact List.mem_map.mpr ⟨d, List.mem_filter.mpr ⟨hd, by simp⟩, rfl⟩
  have hreplay : replay none (offers e.id ds) = some (offered e) := by
    apply replay_newest hmem
    · intro y hy
      obtain ⟨d, hd, hid, rfl⟩ := mem_offers hy
      exact newest d.event (only d hd) hid
    · intro y hy hlsn
      obtain ⟨d, hd, hid, rfl⟩ := mem_offers hy
      rw [distinct d.event (only d hd) e he hid hlsn]
  have hshows := foldl_shows e.uuid ds (shows_empty now e.id)
  rw [hreplay] at hshows
  exact ⟨hshows.2.2, hshows.2.1⟩

/-- A delete delivered before the insert it follows, and the insert twice. -/
theorem redis_converges_swapped :
    let insert := sampleUpsert 1 (by decide)
    let delete := sampleDelete 2 (by decide)
    let r := history 0 [⟨delete, [], 1⟩, ⟨insert, [], 0⟩, ⟨insert, [], 0⟩]
    r.get (redisKey sampleId) = none ∧
      r.get (redisKey sampleId ++ bytes ":lsn") = some (intText 2) := by
  intro insert delete
  apply redis_converges 0 [insert, delete] _ _ _ _ delete (by simp)
  · intro e' he' _
    simp only [List.mem_cons, List.not_mem_nil, or_false] at he'
    rcases he' with rfl | rfl
    · exact (by decide : (1 : Nat) ≤ 2)
    · exact le_refl _
  · intro e he e' he' _ hlsn
    simp only [List.mem_cons, List.not_mem_nil, or_false] at he he'
    rcases he with rfl | rfl <;> rcases he' with rfl | rfl
    · rfl
    · exact absurd hlsn (by decide)
    · exact absurd hlsn (by decide)
    · rfl
  · intro d hd
    simp only [List.mem_cons, List.not_mem_nil, or_false] at hd
    rcases hd with rfl | rfl | rfl <;> simp
  · intro e he
    simp only [List.mem_cons, List.not_mem_nil, or_false] at he
    rcases he with rfl | rfl
    · exact ⟨⟨insert, [], 0⟩, by simp, rfl⟩
    · exact ⟨⟨delete, [], 1⟩, by simp, rfl⟩

end CdcPipeline.Proofs.RedisConvergence
