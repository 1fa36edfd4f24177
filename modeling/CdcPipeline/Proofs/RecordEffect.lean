import CdcPipeline.Proofs.ValueGuard

namespace CdcPipeline.Proofs.RecordEffect

open Library Text Model Debezium RedisUpdater ValueGuard

/-- What a row asks of Redis, once it is known whose it is: nothing if that is no one. -/
def forOrder (id : Except Bytes Bytes) (value : Except Bytes (Option Bytes)) (lsn : Int) :
    Except Bytes (Option Execution) :=
  match id with
  | .error what => .error what
  | .ok id => if id = [] then .ok none else match value with
    | .error what => .error what
    | .ok value => .ok (some ⟨id, lsn, value⟩)

/-- What a record asks of Redis: nothing, one execution of a script, or an error that is
thrown before anything is sent. -/
def effect (record : Json) (key : Bytes) : Except Bytes (Option Execution) :=
  match Record.orderData record with
  | some row => forOrder (Record.orderId row key) (row.dump.map some) (Record.extractLsn record)
  | none => match Record.beforeData record with
    | some before => forOrder (Record.orderId before key) (.ok none) (Record.extractLsn record)
    | none => .ok none

/-- What is thrown once an execution was accepted: a stored row's status must be a string,
or missing from an object. -/
def afterwards (record : Json) : Except Bytes Unit :=
  match Record.orderData record with
  | some row => (Record.stringValue row (bytes "status") (bytes "UNKNOWN")).map (fun _ => ())
  | none => .ok ()

def sent (x : Execution) (r : Redis) : Exchange :=
  ⟨(Redis.exec x.command r).2, [(Redis.exec x.command r).1]⟩

/-- What a call of `ProcessRecord` comes down to. -/
def summary (record : Json) (key : Bytes) (r : Redis) : Except Bytes Unit × Exchange :=
  match effect record key with
  | .error what => (.error what, ⟨r, []⟩)
  | .ok none => (.ok (), ⟨r, []⟩)
  | .ok (some x) =>
    (if (Redis.exec x.command r).1 = .integer 0 then .ok () else afterwards record, sent x r)

/-- The scripts answer zero or one. -/
theorem reply_cases (x : Execution) (r : Redis) :
    (Redis.exec x.command r).1 = .integer 0 ∨ (Redis.exec x.command r).1 = .integer 1 := by
  rw [exec_command]
  split
  · exact Or.inl rfl
  · exact Or.inr rfl

theorem run_ensureConnected (k : Unit → RedisProg Unit) (s : Exchange) :
    (RedisUpdater.ensureConnected.bind k).run Exchange.answer s =
      (k ()).run Exchange.answer s := rfl

theorem run_command (c : Command) (k : Option Reply → RedisProg Unit) (s : Exchange) :
    ((RedisProg.redisCommand c).bind k).run Exchange.answer s =
      (k (some (Redis.exec c s.redis).1)).run Exchange.answer
        ⟨(Redis.exec c s.redis).2, (Redis.exec c s.redis).1 :: s.replies⟩ := rfl

/-- What is left of an upsert once its reply is there. -/
theorem run_stored (row : Json) (id : Bytes) (lsn : Int) (offset : Nat) {reply : Reply}
    (h : reply = .integer 0 ∨ reply = .integer 1) (s : Exchange) :
    ((RedisProg.checkReply (bytes "Redis upsert") (some reply)).bind fun reply =>
      if reply = .integer 0 then RedisProg.log (.redisStaleEventIgnored id lsn offset)
      else (Prog.ofExcept (Record.stringValue row (bytes "status") (bytes "UNKNOWN"))).bind
        fun status => RedisProg.log (.redisUpdated id status lsn offset)).run Exchange.answer s =
      (if reply = .integer 0 then .ok () else
        (Record.stringValue row (bytes "status") (bytes "UNKNOWN")).map (fun _ => ()), s) := by
  rcases h with rfl | rfl
  · rfl
  · cases Record.stringValue row (bytes "status") (bytes "UNKNOWN") with
    | error what => rfl
    | ok status => rfl

theorem run_deleted (id : Bytes) (lsn : Int) (offset : Nat) {reply : Reply}
    (h : reply = .integer 0 ∨ reply = .integer 1) (s : Exchange) :
    ((RedisProg.checkReply (bytes "Redis delete") (some reply)).bind fun _ =>
      RedisProg.log (.redisDeleted id lsn offset)).run Exchange.answer s = (.ok (), s) := by
  rcases h with rfl | rfl
  · rfl
  · rfl

theorem run_upsert {record row : Json} (h : Record.orderData record = some row) (key : Bytes)
    (offset : Nat) (r : Redis) :
    (processUpsert record row key offset).run Exchange.answer ⟨r, []⟩ = summary record key r := by
  unfold processUpsert summary effect afterwards
  simp only [h]
  cases hid : Record.orderId row key with
  | error what => rfl
  | ok id =>
    by_cases hne : id = []
    · subst hne
      rfl
    · cases hdump : row.dump with
      | error what =>
        simp only [Prog.ofExcept_ok, Prog.bind_eq, Prog.ret_bind, hne, if_false,
          run_ensureConnected, forOrder, Except.map, Prog.ofExcept_error, Prog.raise_bind,
          Prog.run_raise]
      | ok value =>
        simp only [Prog.ofExcept_ok, Prog.bind_eq, Prog.ret_bind, hne, if_false,
          run_ensureConnected, run_command, forOrder, Except.map]
        exact run_stored row id (Record.extractLsn record) offset
          (reply_cases ⟨id, Record.extractLsn record, some value⟩ r) _

theorem run_delete {record : Json} (h : Record.orderData record = none) (key : Bytes)
    (offset : Nat) (r : Redis) :
    (processDelete record key offset).run Exchange.answer ⟨r, []⟩ = summary record key r := by
  unfold processDelete summary effect afterwards
  simp only [h]
  cases hb : Record.beforeData record with
  | none => rfl
  | some before =>
    cases hid : Record.orderId before key with
    | error what => simp only [hid]; rfl
    | ok id =>
      by_cases hne : id = []
      · subst hne
        simp only [hid]
        rfl
      · simp only [hid, Prog.ofExcept_ok, Prog.bind_eq, Prog.ret_bind, hne, if_false,
          run_ensureConnected, run_command, forOrder, ite_self]
        exact run_deleted id (Record.extractLsn record) offset
          (reply_cases ⟨id, Record.extractLsn record, none⟩ r) _

theorem process_eq (record : Json) (key : Bytes) (offset : Nat) (r : Redis) :
    Exchange.process record key offset r = summary record key r := by
  unfold Exchange.process processRecord
  cases h : Record.orderData record with
  | some row => exact run_upsert h key offset r
  | none => exact run_delete h key offset r

theorem process_redis (record : Json) (key : Bytes) (offset : Nat) (r : Redis) :
    (Exchange.process record key offset r).2.redis = match effect record key with
      | .ok (some x) => (Redis.exec x.command r).2
      | _ => r := by
  rw [process_eq, summary]
  rcases effect record key with what | x
  · rfl
  · cases x with
    | none => rfl
    | some x => rfl

/-- A call's execution is accepted unless the guard refuses it. -/
theorem accepts_iff (record : Json) (key : Bytes) (offset : Nat) (r : Redis) :
    Exchange.accepts record key offset r = true ↔
      ∃ x, effect record key = .ok (some x) ∧ refuses r x = false := by
  rw [Exchange.accepts, process_eq, summary, decide_eq_true_eq]
  rcases he : effect record key with what | x
  · simp
  · cases x with
    | none => simp
    | some x =>
      simp only [sent, List.mem_singleton, Except.ok.injEq, Option.some.injEq, exists_eq_left']
      rw [exec_command]
      cases hr : refuses r x with
      | true => simp
      | false => simp

def imageText (image : Option Json) : Option Bytes := image.bind (fun row => row.dump.toOption)

theorem uuid_ne_nil {id : Bytes} (h : isUuid id = true) : id ≠ [] := by
  rintro rfl
  contradiction

/-- A change event asks for its image to be stored, under its order and version. -/
theorem effect_shape {record : Json} {id : Bytes} {image : Option Json} (uuid : isUuid id = true)
    (shape : Shape record id image) (key : Bytes) : effect record key =
      .ok (some ⟨id, Record.extractLsn record, imageText image⟩) := by
  have hne := uuid_ne_nil uuid
  unfold effect
  cases image with
  | some row =>
    obtain ⟨hdata, hrow⟩ := shape.orderData_some
    obtain ⟨t, ht⟩ := (Json.dump_ok_iff row).mpr hrow.utf8
    simp only [hdata, orderId_row hrow hne, ht, imageText, forOrder, hne, if_false, Except.map,
      Option.bind_some, Except.toOption]
  | none =>
    obtain ⟨hdata, row, hbefore, hrow⟩ := shape.orderData_none
    simp only [hdata, hbefore, orderId_row hrow hne, imageText, forOrder, hne, if_false,
      Option.bind_none]

/-- The execution an event asks for. -/
def execution (e : Event) : Execution := ⟨e.id, e.lsn, e.text⟩

theorem effect_event (e : Event) (key : Bytes) :
    effect e.record key = .ok (some (execution e)) := by
  rw [effect_shape e.uuid e.shape, e.extractLsn]
  rfl

end CdcPipeline.Proofs.RecordEffect
