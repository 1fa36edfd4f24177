import CdcPipeline.Library.Machine
import CdcPipeline.Model.LoadGenerator
import CdcPipeline.Model.Postgres

namespace CdcPipeline.Model

open Library Text Postgres

/-- Who has sent a request: a worker of the load generator, or somebody else. -/
inductive Sender (κ : Type) where
  | outside
  | worker (k : κ)

/-- What a server thread's calls leave to tell: that it took a request, what that did to
`orders`, how it was answered; the second part of a ticket counts the thread's requests. -/
abbrev OrderMark (ι : Type) := History.Mark (ι × Nat) Incoming StoreOp StoreAns Response

/-- The API process and what is around it: Postgres with the transaction that is open on the
one connection, the requests on their way (the `n`th sent is on connection `n`), the
responses given, and the load generator's flag and threads. -/
structure ApiProcess (ι κ : Type) where
  table : Table
  transaction : Option (ι × StoreOp)
  turn : ι → Nat
  history : List (OrderMark ι)
  sent : List (Sender κ × Request)
  inbox : List Incoming
  outbox : List (Nat × Response)
  running : Bool
  launched : κ → Bool
  finished : κ → Bool
  stopped : Bool

namespace ApiProcess

variable {ι κ : Type}

def fresh (table : Table) : ApiProcess ι κ where
  table := table
  transaction := none
  turn _ := 0
  history := []
  sent := []
  inbox := []
  outbox := []
  running := false
  launched _ := false
  finished _ := false
  stopped := false

section Postgres

variable (cols : ColumnTypes)

/-- A mark of the request that thread `i` is at. -/
def note (s : ApiProcess ι κ) (i : ι) (m : (ι × Nat) → OrderMark ι) : ApiProcess ι κ :=
  { s with history := s.history ++ [m (i, s.turn i)] }

/-- An operation takes effect on the table. -/
def act (s : ApiProcess ι κ) (i : ι) (o : StoreOp) : ApiProcess ι κ :=
  { s.note i (.effect · o (OrderStore.step o s.table).1) with
    table := (OrderStore.step o s.table).2 }

def begin (s : ApiProcess ι κ) (i : ι) (o : StoreOp) : ApiProcess ι κ :=
  { s with transaction := some (i, o) }

def close (s : ApiProcess ι κ) : ApiProcess ι κ := { s with transaction := none }

/-- What `exec` comes to, once the thread has the connection to itself. Any statement may fail;
one that is none of those told apart here may do anything. -/
inductive Execs (i : ι) (s : ApiProcess ι κ) (sql : Bytes) :
    Except Bytes (List SqlRow) → ApiProcess ι κ → Prop where
  | failed (error : Bytes) : Execs i s sql (.error error) s
  | inserted {values row now} (is : Statement.ofText sql = some (.insert values))
      (reads : cols.row values now = .ok row) (fresh : s.table row.id = none) :
      Execs i s sql (.ok []) (s.begin i (.insert row))
  | selected {text id} (is : Statement.ofText sql = some (.select text))
      (reads : cols.uuid text = .ok id) :
      Execs i s sql (.ok ((s.table id).toList.map OrderRow.selected)) (s.act i (.find id))
  | other (unknown : Statement.ofText sql = none) (rows : List SqlRow) (table : Table) :
      Execs i s sql (.ok rows) { s with table := table }

/-- `UPDATE orders SET status = $1 WHERE id = $2`, and how many rows it has affected. -/
inductive Updates (i : ι) (s : ApiProcess ι κ) (sql : Bytes) (params : List Bytes) :
    Except Bytes Nat → ApiProcess ι κ → Prop where
  | failed (error : Bytes) : Updates i s sql params (.error error) s
  | updated {newStatus orderId status id} (is : sql = DatabaseClient.updateStatusSql)
      (args : params = [newStatus, orderId]) (readsStatus : cols.varchar newStatus = .ok status)
      (readsId : cols.uuid orderId = .ok id) :
      Updates i s sql params (.ok (s.table id).toList.length) (s.begin i (.setStatus id status))

/-- A commit takes effect, or does not, and when it fails there is no telling which. -/
inductive Commits (i : ι) (s : ApiProcess ι κ) (o : StoreOp) :
    Except Bytes Unit → ApiProcess ι κ → Prop where
  | committed : Commits i s o (.ok ()) (s.close.act i o)
  | inDoubt (error : Bytes) : Commits i s o (.error error) (s.close.act i o)
  | rolledBack (error : Bytes) : Commits i s o (.error error) s.close

end Postgres

section Calls

variable [DecidableEq ι] [DecidableEq κ] (cols : ColumnTypes)

/-- The calls of the POST and GET handlers. `db_mutex_` keeps a thread waiting while another
has a transaction open; what Redis answers is left open. -/
def apiCall (i : ι) : (op : ApiOp) → ApiProcess ι κ → ApiAns op → ApiProcess ι κ → Prop
  | .exec sql, s, r, s' => s.transaction = none ∧ Execs cols i s sql r s'
  | .commit, s, r, s' => ∃ o, s.transaction = some (i, o) ∧ Commits i s o r s'
  | _, s, _, s' => s' = s

def serverCall (i : ι) : (op : ServerOp) → ApiProcess ι κ → ServerAns op → ApiProcess ι κ → Prop
  | .accept, s, x, s' => x ∈ s.inbox ∧
      s' = { s.note i (.called · x) with inbox := s.inbox.erase x }
  | .api op, s, a, s' => apiCall cols i op s a s'
  | .execParams sql params, s, r, s' =>
    s.transaction = none ∧ Updates cols i s sql params r s'
  | .log _, s, _, s' => s' = s
  | .respond connection response, s, _, s' =>
    s' = { s.note i (.answered · response) with
      turn := Function.update s.turn i (s.turn i + 1)
      outbox := (connection, response) :: s.outbox }

def send (s : ApiProcess ι κ) (sender : Sender κ) (r : Request) : ApiProcess ι κ :=
  { s with
    sent := s.sent ++ [(sender, r)]
    inbox := ⟨s.sent.length, r⟩ :: s.inbox }

/-- A response may never come, or come too late. The amounts drawn are doubles. -/
def workerCall (doubles : FloatText → Prop) (k : κ) :
    (op : WorkerOp) → ApiProcess ι κ → WorkerAns op → ApiProcess ι κ → Prop
  | .loadRunning, s, b, s' => s' = s ∧ b = s.running
  | .send r, s, connection, s' => connection = s.sent.length ∧ s' = s.send (.worker k) r
  | .receive connection, s, res, s' => s' = s ∧ ∀ r, res = some r → (connection, r) ∈ s.outbox
  | .amount, s, x, s' => s' = s ∧ doubles x
  | _, s, _, s' => s' = s

end Calls

inductive Thread (ι κ : Type) where
  | server (i : ι)
  | worker (k : κ)
  | main
deriving DecidableEq

/-- Where a thread is; a worker carries `created_ids` through its loop. -/
inductive Point where
  | start
  | looping (createdIds : List Bytes)
  | started
  | ended

/-- The calls of all of them: those of `Start` and `Stop` are `main`'s. -/
inductive ProcessOp (κ : Type) where
  | server (op : ServerOp)
  | worker (op : WorkerOp)
  | storeRunning (b : Bool)
  | launch (k : κ)
  | join (k : κ)
  | log (c : ApiCall)
  | stopped
  | enter
  | finish

@[reducible] def ProcessAns : ProcessOp κ → Type
  | .server op => ServerAns op
  | .worker op => WorkerAns op
  | _ => Unit

abbrev ProcessProg (κ : Type) := Prog (ProcessOp κ) ProcessAns Exn

section Code

variable (lib : Conversions) (cfg : LoadGenerator.Config)

def call (op : ProcessOp κ) : ProcessProg κ (ProcessAns op) := Prog.call op

def server : Point → ProcessProg κ Point
  | .start => do
    (ApiServer.serve lib).embed .server (fun _ a => a)
    return .start
  | p => return p

/-- `RunWorker`, once `Start` has made the thread. -/
def worker (threadId : Int) : Point → ProcessProg κ Point
  | .start => do
    call .enter
    return .looping []
  | .looping createdIds => do
    match ← (LoadGenerator.tick lib threadId cfg createdIds).embed .worker (fun _ a => a) with
    | some createdIds => return .looping createdIds
    | none =>
      call .finish
      return .ended
  | p => return p

def launchAll : List κ → ProcessProg κ Unit
  | [] => return ()
  | k :: ks => do
    call (.launch k)
    launchAll ks

def joinAll : List κ → ProcessProg κ Unit
  | [] => return ()
  | k :: ks => do
    call (.join k)
    joinAll ks

/-- `LoadGenerator::Start`, and at any time after it `LoadGenerator::Stop`. -/
def main (apiHost : Bytes) (apiPort : Int) (workers : List κ) : Point → ProcessProg κ Point
  | .start => do
    call (.storeRunning true)
    launchAll workers
    call (.log (.loadGeneratorStarted apiHost apiPort cfg.reqPerSec cfg.numThreads))
    return .started
  | .started => do
    call (.storeRunning false)
    joinAll workers
    call (.log .loadGeneratorStopped)
    call .stopped
    return .ended
  | p => return p

end Code

/-- The libraries, PostgreSQL's types, the doubles that can be drawn, what requests come from
outside, the load generator's settings, and its workers with the ids they are given. -/
structure Setting (κ : Type) where
  lib : Conversions
  cols : ColumnTypes
  doubles : FloatText → Prop
  clients : Request → Prop
  cfg : LoadGenerator.Config
  apiHost : Bytes
  apiPort : Int
  workers : List κ
  threadId : κ → Int

section Machine

variable [DecidableEq ι] [DecidableEq κ] (E : Setting κ)

/-- A worker begins once it is launched, and `join` waits for it to end. -/
def effect : Thread ι κ → (op : ProcessOp κ) → ApiProcess ι κ → ProcessAns op → ApiProcess ι κ →
    Prop
  | .server i, .server op, s, a, s' => serverCall E.cols i op s a s'
  | .worker k, .worker op, s, a, s' => workerCall E.doubles k op s a s'
  | .worker k, .enter, s, _, s' => s' = s ∧ s.launched k = true
  | .worker k, .finish, s, _, s' => s' = { s with finished := Function.update s.finished k true }
  | .main, .storeRunning b, s, _, s' => s' = { s with running := b }
  | .main, .launch k, s, _, s' => s' = { s with launched := Function.update s.launched k true }
  | .main, .join k, s, _, s' => s' = s ∧ s.finished k = true
  | .main, .log _, s, _, s' => s' = s
  | .main, .stopped, s, _, s' => s' = { s with stopped := true }
  | _, _, _, _, _ => False

/-- Requests come from outside. -/
inductive Env (s : ApiProcess ι κ) : ApiProcess ι κ → Prop where
  | send {r} (may : E.clients r) : Env s (s.send .outside r)

def machine : Machine (Thread ι κ) (ProcessOp κ) ProcessAns Exn Point (ApiProcess ι κ) where
  code
    | .server _ => server E.lib
    | .worker k => worker E.lib E.cfg (E.threadId k)
    | .main => main E.cfg E.apiHost E.apiPort E.workers
  start := .start
  call := effect E
  env := Env E
  crash := fun _ _ _ => False

end Machine

end ApiProcess

end CdcPipeline.Model
