import CdcPipeline.Library.Text
import CdcPipeline.Library.Double

namespace CdcPipeline.Model

open Library Text

structure Entry where
  value : Bytes
  expireAt : Nat

/-- The Redis server the consumers and the API share: its clock in milliseconds
and its string keys, every one of which is set with an expiry. -/
structure Redis where
  now : Nat
  store : Bytes → Option Entry

inductive Reply where
  | nil
  | integer (n : Int)
  | status (s : Bytes)
  | string (s : Bytes)
  | error (s : Bytes)
deriving DecidableEq

inductive Script where
  | luaUpsert
  | luaDel
deriving DecidableEq

/-- The commands the consumers send: `EVAL script 1 KEYS ARGV` and
`SET key value EX ttl NX`. -/
inductive Command where
  | eval (script : Script) (keys argv : List Bytes)
  | setNx (key value ttl : Bytes)
deriving DecidableEq

namespace Redis

def empty (now : Nat) : Redis := ⟨now, fun _ => none⟩

/-- A key past its expiry is gone, whether or not the server has swept it. -/
def live (r : Redis) (k : Bytes) : Option Entry := (r.store k).filter (fun e => r.now ≤ e.expireAt)

def get (r : Redis) (k : Bytes) : Option Bytes := (r.live k).map Entry.value

def del (r : Redis) (k : Bytes) : Redis := { r with store := Function.update r.store k none }

def setEx (r : Redis) (k v : Bytes) (seconds : Nat) : Redis :=
  { r with store := Function.update r.store k (some ⟨v, r.now + seconds * 1000⟩) }

/-- The `EX` argument: a positive integer. -/
def readTtl (ttl : Bytes) : Option Nat := (readNat ttl).filter (0 < ·)

def badTtl : Reply := .error (bytes "ERR value is not an integer or out of range")

/-- Lua's `tonumber` on the decimal texts that are stored and passed here. Its
hexadecimal, infinite and blank-padded forms are never written by the pipeline. -/
def tonumber (s : Bytes) : Option ℚ := (readDecimal s).map Double.roundDouble

/-- `current_lsn and tonumber(lsn) and tonumber(current_lsn) and
tonumber(lsn) <= tonumber(current_lsn)`. -/
def stale (current : Option Bytes) (lsn : Bytes) : Bool :=
  match current.bind tonumber, tonumber lsn with
  | some c, some l => decide (l ≤ c)
  | _, _ => false

/-- `KEYS[n]` and `ARGV[n]`, counted from one as in Lua. -/
def nth (xs : List Bytes) (n : Nat) : Bytes := xs.getD (n - 1) []

def luaUpsert (keys argv : List Bytes) (r : Redis) : Reply × Redis :=
  let key := nth keys 1
  if stale (r.get (key ++ bytes ":lsn")) (nth argv 2) then (.integer 0, r)
  else match readTtl (nth argv 3) with
    | none => (badTtl, r)
    | some ttl =>
      let r := r.setEx key (nth argv 1) ttl
      (.integer 1, r.setEx (key ++ bytes ":lsn") (nth argv 2) ttl)

def luaDel (keys argv : List Bytes) (r : Redis) : Reply × Redis :=
  let key := nth keys 1
  if stale (r.get (key ++ bytes ":lsn")) (nth argv 1) then (.integer 0, r)
  else
    let r := r.del key
    match readTtl (nth argv 2) with
    | none => (badTtl, r)
    | some ttl => (.integer 1, r.setEx (key ++ bytes ":lsn") (nth argv 1) ttl)

/-- One command, executed at one instant of the server's clock. -/
def exec : Command → Redis → Reply × Redis
  | .eval .luaUpsert keys argv, r => luaUpsert keys argv r
  | .eval .luaDel keys argv, r => luaDel keys argv r
  | .setNx key value ttl, r =>
    match readTtl ttl with
    | none => (badTtl, r)
    | some ttl =>
      if (r.live key).isSome then (.nil, r)
      else (.status (bytes "OK"), r.setEx key value ttl)

def tick (r : Redis) (elapsed : Nat) : Redis := { r with now := r.now + elapsed }

@[simp] theorem live_setEx_self (r : Redis) (k v : Bytes) (ttl : Nat) :
    (r.setEx k v ttl).live k = some ⟨v, r.now + ttl * 1000⟩ := by
  simp [live, setEx]

theorem store_setEx_ne (r : Redis) {k k' : Bytes} (v : Bytes) (ttl : Nat) (h : k' ≠ k) :
    (r.setEx k v ttl).store k' = r.store k' :=
  Function.update_of_ne h _ _

theorem store_del_ne (r : Redis) {k k' : Bytes} (h : k' ≠ k) : (r.del k).store k' = r.store k' :=
  Function.update_of_ne h _ _

theorem live_setEx_ne (r : Redis) {k k' : Bytes} (v : Bytes) (ttl : Nat) (h : k' ≠ k) :
    (r.setEx k v ttl).live k' = r.live k' := by
  rw [live, store_setEx_ne r v ttl h]
  rfl

@[simp] theorem live_del_self (r : Redis) (k : Bytes) : (r.del k).live k = none := by
  simp [live, del]

theorem live_del_ne (r : Redis) {k k' : Bytes} (h : k' ≠ k) : (r.del k).live k' = r.live k' := by
  rw [live, store_del_ne r h]
  rfl

@[simp] theorem get_setEx_self (r : Redis) (k v : Bytes) (ttl : Nat) :
    (r.setEx k v ttl).get k = some v := by
  simp [get]

theorem get_setEx_ne (r : Redis) {k k' : Bytes} (v : Bytes) (ttl : Nat) (h : k' ≠ k) :
    (r.setEx k v ttl).get k' = r.get k' := by
  simp [get, live_setEx_ne r v ttl h]

@[simp] theorem get_del_self (r : Redis) (k : Bytes) : (r.del k).get k = none := by
  simp [get]

theorem get_del_ne (r : Redis) {k k' : Bytes} (h : k' ≠ k) : (r.del k).get k' = r.get k' := by
  simp [get, live_del_ne r h]

/-- Time only takes entries away. -/
theorem live_tick (r : Redis) (elapsed : Nat) (k : Bytes) :
    (r.tick elapsed).live k = (r.live k).filter (fun e => r.now + elapsed ≤ e.expireAt) := by
  unfold live tick
  cases r.store k with
  | none => rfl
  | some e =>
    by_cases h' : r.now ≤ e.expireAt
    · simp [Option.filter_some, h']
    · have h : ¬ r.now + elapsed ≤ e.expireAt := fun h => h' (Nat.le_trans (Nat.le_add_right _ _) h)
      simp [Option.filter_some, h, h']

/-- Deleting a key that is gone changes nothing that can be seen. -/
theorem live_del_gone {r : Redis} {k : Bytes} (h : r.live k = none) (k' : Bytes) :
    (r.del k).live k' = r.live k' := by
  by_cases hk : k' = k
  · rw [hk, live_del_self, h]
  · exact live_del_ne r hk

theorem tonumber_intText {n : Int} (h : |n| < 2 ^ 53) : tonumber (intText n) = some (n : ℚ) := by
  rw [tonumber, readDecimal_intText, Option.map_some, Double.roundDouble_int h]

/-- The guard on versions that fit a double: a missing one never rejects, a
stored one rejects what is not newer. -/
theorem stale_none (lsn : Bytes) : stale none lsn = false := rfl

theorem stale_intText {m n : Int} (hm : |m| < 2 ^ 53) (hn : |n| < 2 ^ 53) :
    stale (some (intText m)) (intText n) = decide (n ≤ m) := by
  simp [stale, tonumber_intText hm, tonumber_intText hn]

end Redis

end CdcPipeline.Model
