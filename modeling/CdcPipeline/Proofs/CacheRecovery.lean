import CdcPipeline.Model.ApiServer

namespace CdcPipeline.Proofs.CacheRecovery

open Library Text Model

/-- A call of `RedisClient::Get`, and what it meets. -/
structure GetCall where
  key : Bytes
  backends : Backends

/-- Its command is replied to, be it with an error. -/
def GetCall.replied (c : GetCall) : Bool := (c.backends.reply (cString c.key)).isSome

def get (key : Bytes) (E : Backends) (s : Served) : Except Exn (Option Bytes) × Served :=
  (RedisClient.get key).run E.answer s

/-- The client as its constructor leaves it. -/
def connected : Served := ⟨true, []⟩

/-- The client behind some calls, the first of them first. -/
def after (history : List GetCall) : Served :=
  history.foldl (fun s c => (get c.key c.backends s).2) connected

/-- Redis answers in time with what it holds. -/
def Serves (E : Backends) (r : Redis) : Prop :=
  ∀ key, E.reply key = some ((r.get key).elim .nil .string)

section Call
variable {E : Backends} {s : Served} {key : Bytes}

/-- Without a context nothing is sent, and none is made. -/
theorem get_lost (h : s.context = false) :
    get key E s = (.error (.other (bytes "Redis context is null")), s) := by
  simp [get, RedisClient.get, ApiProg.call, Backends.answer, h]

theorem get_connected (h : s.context = true) {r : Redis} (serves : Serves E r) :
    get key E s = (.ok ((r.get (cString key)).map cString), s) := by
  simp only [get, RedisClient.get, ApiProg.call, Prog.bind_eq, Prog.call_bind, Prog.run_ask,
    Backends.answer, h, if_true, serves (cString key)]
  cases r.get (cString key) with
  | none => rfl
  | some v => rfl

/-- The context lasts as long as commands are replied to. -/
theorem context_get (c : GetCall) (s : Served) :
    (get c.key c.backends s).2.context = (s.context && c.replied) := by
  cases h : s.context with
  | false => rw [get_lost h, h, Bool.false_and]
  | true =>
    simp only [get, RedisClient.get, ApiProg.call, Prog.bind_eq, Prog.call_bind, Prog.run_ask,
      Backends.answer, h, if_true, GetCall.replied, Bool.true_and]
    cases c.backends.reply (cString c.key) with
    | none => rfl
    | some reply => cases reply <;> exact h

end Call

theorem context_history (history : List GetCall) (s : Served) :
    (history.foldl (fun s c => (get c.key c.backends s).2) s).context =
      (s.context && history.all GetCall.replied) := by
  induction history generalizing s with
  | nil => simp
  | cons c cs ih => rw [List.foldl_cons, ih, context_get, List.all_cons, Bool.and_assoc]

theorem context_after (history : List GetCall) :
    (after history).context = true ↔ ∀ c ∈ history, c.replied = true := by
  rw [after, context_history, connected, Bool.true_and, List.all_eq_true]

/-- A client that has once gone without a reply never gives a value again. -/
theorem lost_for_good {history : List GetCall} {c : GetCall} (hc : c ∈ history)
    (h : c.replied = false) (key : Bytes) (E : Backends) :
    get key E (after history) =
      (.error (.other (bytes "Redis context is null")), after history) := by
  refine get_lost (Bool.eq_false_iff.mpr fun hcontext => ?_)
  have hreplied := (context_after history).mp hcontext c hc
  rw [h] at hreplied
  contradiction

/-- What the server holds is what a call returns, whichever calls went before, unless one
of them had no reply, or a NUL cuts the key or the value short. -/
theorem get_recovers_iff (history : List GetCall) {E : Backends} {r : Redis}
    (serves : Serves E r) (key : Bytes) :
    (get key E (after history)).1 = .ok (r.get key) ↔
      (∀ c ∈ history, c.replied = true) ∧ (r.get (cString key)).map cString = r.get key := by
  constructor
  · intro h
    have hcontext : (after history).context = true := by
      by_contra hlost
      rw [get_lost (Bool.eq_false_iff.mpr hlost)] at h
      contradiction
    refine ⟨(context_after history).mp hcontext, ?_⟩
    rw [get_connected hcontext serves] at h
    exact Except.ok.inj h
  · intro ⟨hreplied, hcut⟩
    rw [get_connected ((context_after history).mpr hreplied) serves, hcut]

/-- Postgres aside, what one call meets. -/
def meeting (reply : Bytes → Option Reply) : Backends where
  reply := reply
  rows := fun _ => .ok []
  draws := ⟨fun _ => Fin.last 15, Fin.last 3⟩
  committed := .ok ()

def stored : Redis := (Redis.empty 0).setEx (bytes "order:a") (bytes "1") 86400

def serving : Backends := meeting fun key => some ((stored.get key).elim .nil .string)

theorem serving_serves : Serves serving stored := fun _ => rfl

/-- An error reply, and then a nil. -/
def sampleHistory : List GetCall :=
  [⟨bytes "order:a", meeting fun _ => some (.error (bytes "LOADING"))⟩,
    ⟨bytes "order:a", meeting fun _ => some .nil⟩]

theorem get_recovers_replied :
    (get (bytes "order:a") serving (after sampleHistory)).1 = .ok (stored.get (bytes "order:a")) ↔
      (∀ c ∈ sampleHistory, c.replied = true) ∧
        (stored.get (cString (bytes "order:a"))).map cString = stored.get (bytes "order:a") :=
  get_recovers_iff sampleHistory serving_serves (bytes "order:a")

/-- One command that timed out, and the value is out of reach from then on. -/
theorem timeout_disconnects :
    Serves serving stored ∧ stored.get (bytes "order:a") = some (bytes "1") ∧
      ¬ (get (bytes "order:a") serving (after [⟨bytes "order:a", meeting fun _ => none⟩])).1 =
        .ok (stored.get (bytes "order:a")) := by
  refine ⟨serving_serves, Redis.get_setEx_self _ _ _ _, fun h => ?_⟩
  rw [lost_for_good (List.mem_singleton_self _) rfl] at h
  contradiction

end CdcPipeline.Proofs.CacheRecovery
