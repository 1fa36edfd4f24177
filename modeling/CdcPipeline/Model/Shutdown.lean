import CdcPipeline.Library.Machine
import CdcPipeline.Model.EsIndexer
import CdcPipeline.Model.Notifier

namespace CdcPipeline.Model

open Library Text KafkaConsumerBase

/-- The three consumer threads that `main` launches. -/
inductive Worker where
  | esIndexer
  | redisUpdater
  | notifier
deriving DecidableEq

/-- What `main` constructs before it launches them. -/
inductive Part where
  | deserializer
  | consumer (k : Worker)

/-- The lines of `main` and of the threads it launches. -/
inductive MainLine where
  | waitingForServices (attempt : Nat) (error : Bytes)
  | launchingConsumerThreads
  | crashed (k : Worker) (error : Bytes)
  | allConsumerThreadsRunning
  | shutdownSignalReceived
  | consumersShutdownComplete
  | consumersFatalError (error : Bytes)

/-- The calls of `main`, of the threads' bodies, and of the three `Run`s in them. -/
inductive MainOp (Sink : Worker → Type) where
  | construct (p : Part)
  | launch (k : Worker)
  | loadShutdownRequested
  | sleepFor (ms : Nat)
  | stop (k : Worker)
  | join (k : Worker)
  | line (l : MainLine)
  | begin (k : Worker)
  | run (k : Worker) (op : RunOp (Sink k))
  | finish (k : Worker)

@[reducible] def MainAns {Sink : Worker → Type} (SinkAns : ∀ k, Sink k → Type) :
    MainOp Sink → Type
  | .construct _ => Except Bytes Unit
  | .loadShutdownRequested => Bool
  | .run k op => RunAns (SinkAns k) op
  | _ => Unit

/-- `g_shutdown_requested`, and of every consumer: whether its thread exists, whether its
`Run` has set `running_`, what `running_` is, whether `Stop` has returned, and whether the
thread has ended. -/
structure Shutdown where
  requested : Bool
  launched : Worker → Bool
  entered : Worker → Bool
  running : Worker → Bool
  stopped : Worker → Bool
  finished : Worker → Bool

namespace Shutdown

/-- Before `main` has done anything; the signal may have come already. -/
def fresh (requested : Bool) : Shutdown :=
  ⟨requested, fun _ => false, fun _ => false, fun _ => false, fun _ => false, fun _ => false⟩

inductive Thread where
  | main
  | worker (k : Worker)
deriving DecidableEq

/-- Where `main` is, or a thread it has launched. -/
inductive Point where
  | start
  | waiting
  | stopping
  | joining
  | run (n : Node)
  | ended

section Code

variable {Sink : Worker → Type} {SinkAns : ∀ k, Sink k → Type}

abbrev MainProg (SinkAns : ∀ k, Sink k → Type) := Prog (MainOp Sink) (MainAns SinkAns) Bytes

def call (op : MainOp Sink) : MainProg SinkAns (MainAns SinkAns op) := Prog.call op

/-- The parts still missing are constructed in their order until one throws. -/
def constructMissing : List Part → MainProg SinkAns (List Part × Option Bytes)
  | [] => return ([], none)
  | p :: ps => do
    match ← call (.construct p) with
    | .ok () => constructMissing ps
    | .error what => return (p :: ps, some what)

/-- The startup readiness loop, from `attempt` on, with `left` attempts allowed. -/
def startup : (left attempt : Nat) → List Part → MainProg SinkAns Unit
  | 0, _, _ => return ()
  | left + 1, attempt, missing => do
    match ← constructMissing missing with
    | (_, none) => return ()
    | (missing, some what) =>
      if attempt = 20 then Prog.raise what
      else
        call (.line (.waitingForServices attempt what))
        call (.sleepFor 2000)
        startup left (attempt + 1) missing

def launchAll : MainProg SinkAns Point := do
  startup 20 1 [.deserializer, .consumer .esIndexer, .consumer .redisUpdater, .consumer .notifier]
  call (.line .launchingConsumerThreads)
  call (.launch .esIndexer)
  call (.launch .redisUpdater)
  call (.launch .notifier)
  call (.line .allConsumerThreadsRunning)
  return .waiting

def main : Point → MainProg SinkAns Point
  | .start => do
    match ← Prog.attempt launchAll with
    | .ok next => return next
    | .error what =>
      call (.line (.consumersFatalError what))
      return .ended
  | .waiting => do
    if ← call .loadShutdownRequested then
      call (.line .shutdownSignalReceived)
      return .stopping
    else
      call (.sleepFor 500)
      return .waiting
  | .stopping => do
    call (.stop .esIndexer)
    call (.stop .redisUpdater)
    call (.stop .notifier)
    return .joining
  | .joining => do
    call (.join .esIndexer)
    call (.join .redisUpdater)
    call (.join .notifier)
    call (.line .consumersShutdownComplete)
    return .ended
  | p => return p

/-- A part of `Run` inside the thread's `try`; what it throws ends the thread. -/
def guarded (k : Worker) (p : RunProg (SinkAns k) Node) : MainProg SinkAns Point := do
  match ← Prog.attempt (p.embed (MainOp.run k) (fun _ a => a)) with
  | .ok n => return .run n
  | .error what =>
    call (.line (.crashed k what))
    call (.finish k)
    return .ended

def worker (k : Worker) (c : Consumer (Sink k) (SinkAns k)) : Point → MainProg SinkAns Point
  | .start => do
    call (.begin k)
    return .run .start
  | .run .returned => do
    call (.finish k)
    return .ended
  | .run n => guarded k (c.run n)
  | p => return p

/-- A thread begins once it is launched, and `join` waits for it to end. What the calls
of `Run` other than those on `running_` answer is left open. -/
def effect : (op : MainOp Sink) → Shutdown → MainAns SinkAns op → Shutdown → Prop
  | .launch k, w, _, w' => w' = { w with launched := Function.update w.launched k true }
  | .loadShutdownRequested, w, b, w' => w' = w ∧ b = w.requested
  | .stop k, w, _, w' => w' = { w with
      running := Function.update w.running k false
      stopped := Function.update w.stopped k true }
  | .join k, w, _, w' => w' = w ∧ w.finished k = true
  | .begin k, w, _, w' => w' = w ∧ w.launched k = true
  | .run k (.storeRunning b), w, _, w' => w' = { w with
      running := Function.update w.running k b
      entered := Function.update w.entered k true }
  | .run k .loadRunning, w, b, w' => w' = w ∧ b = w.running k
  | .finish k, w, _, w' => w' = { w with finished := Function.update w.finished k true }
  | _, w, _, w' => w' = w

/-- `SignalHandler`, at any point. -/
inductive Env (w : Shutdown) : Shutdown → Prop where
  | signal : Env w { w with requested := true }

def machine (c : ∀ k, Consumer (Sink k) (SinkAns k)) :
    Machine Thread (MainOp Sink) (MainAns SinkAns) Bytes Point Shutdown where
  code
    | .main => main
    | .worker k => worker k (c k)
  start := .start
  call := fun _ => effect
  env := Env
  crash := fun _ _ _ => False

end Code

@[reducible] def SinkOf : Worker → Type
  | .esIndexer => HttpOp
  | .redisUpdater | .notifier => RedisOp

@[reducible] def AnsOf : (k : Worker) → SinkOf k → Type
  | .esIndexer => HttpAns
  | .redisUpdater | .notifier => RedisAns

def consumers (esUrl topic : Bytes) (parse : Bytes → Except Bytes Json) :
    (k : Worker) → Consumer (SinkOf k) (AnsOf k)
  | .esIndexer => EsIndexer.consumer esUrl topic parse
  | .redisUpdater => RedisUpdater.consumer topic parse
  | .notifier => Notifier.consumer topic parse

end Shutdown

end CdcPipeline.Model
