import CdcPipeline.Library.Machine
import CdcPipeline.Model.KafkaConsumerBase

namespace CdcPipeline.Model

open Library Text KafkaConsumerBase

/-- `ProcessRecord` as the loop sees it: a call that returns or throws. -/
inductive ProcessOp where
  | processRecord (record : Json) (key : Bytes) (offset : Nat)

@[reducible] def ProcessAns : ProcessOp → Type := fun _ => Except Bytes Unit

/-- A consumer about whose `ProcessRecord` nothing is known. -/
def anyConsumer (cfg : Config) (parse : Bytes → Except Bytes Json) :
    Consumer ProcessOp ProcessAns :=
  ⟨cfg, parse, fun record key offset =>
    (Prog.call (.processRecord record key offset)).bind Prog.ofExcept⟩

/-- What has become of a consumed message: how each call of `ProcessRecord` ended, the
last one first, and whether it was given up as unparseable, produced to the dead-letter
topic, and committed. -/
structure Passage where
  message : Message
  outcomes : List (Except Bytes Unit)
  unparseable : Bool
  routed : Bool
  committed : Bool

/-- `running_`, and the messages consumed, the last one first. -/
structure StopRun where
  running : Bool
  passages : List Passage

namespace StopRun

def looping : StopRun := ⟨true, []⟩

def consumed (w : StopRun) (m : Message) : StopRun :=
  { w with passages := ⟨m, [], false, false, false⟩ :: w.passages }

/-- Whatever `Run` does after consuming a message concerns that message. -/
def onLast (w : StopRun) (f : Passage → Passage) : StopRun :=
  { w with passages := match w.passages with
      | [] => []
      | p :: rest => f p :: rest }

def call : (op : RunOp ProcessOp) → StopRun → RunAns ProcessAns op → StopRun → Prop
  | .storeRunning b, w, _, w' => w' = { w with running := b }
  | .loadRunning, w, b, w' => w' = w ∧ b = w.running
  | .consume _, w, .message m, w' => w' = w.consumed m
  | .sink _, w, outcome, w' =>
    w' = w.onLast (fun p => { p with outcomes := outcome :: p.outcomes })
  | .produce .., w, _, w' => w' = w.onLast (fun p => { p with routed := true })
  | .commitSync .., w, _, w' => w' = w.onLast (fun p => { p with committed := true })
  | .log (.unparseablePayloadRoutingDlq _), w, _, w' =>
    w' = w.onLast (fun p => { p with unparseable := true })
  | _, w, _, w' => w' = w

/-- `Stop`, at any point. -/
inductive Env (w : StopRun) : StopRun → Prop where
  | stop : Env w { w with running := false }

/-- One `Run` that is inside its loop. -/
def machine (cfg : Config) (parse : Bytes → Except Bytes Json) :
    Machine Unit (RunOp ProcessOp) (RunAns ProcessAns) Bytes Node StopRun where
  code := fun _ => (anyConsumer cfg parse).run
  start := .head
  call := fun _ => call
  env := Env
  crash := fun _ _ _ => False

end StopRun

end CdcPipeline.Model
