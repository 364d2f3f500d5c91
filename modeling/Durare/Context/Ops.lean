import Durare.Context.InMemory
import Durare.Machinery.Replay

/-!
# Context/Ops — the operations a workflow is built from

`Op` is one durable operation with its arguments, `Op.run` the method it calls.  A workflow is a
`Program` over operations: what it does next depends on its input and on the results it has seen.

The second half is what the operations mean to a log: the name an operation records under, the
sequence numbers it takes, and — for the operations that are checkpointed — the result a recorded
row stands for, stated without running anything.
-/

namespace Durare

/-- One durable operation. -/
inductive Op : Type 1 where
  | step (T : Type) [Serde T] (name : String)
  | stepWith (T : Type) [Serde T] (opts : StepOptions)
  | select (T : Type) [Serde T] (branches : Nat)
  | sleep (dur : Duration)
  | now
  | uuid
  | random
  | send (T : Type) [Serde T] (destinationId : String) (message : T) (topic : String)
  | recv (T : Type) [Serde T] (topic : String) (timeout : Duration)
  | setEvent (T : Type) [Serde T] (key : String) (value : T)
  | getEvent (T : Type) [Serde T] (targetWorkflowId key : String) (timeout : Duration)
  | writeStream (T : Type) [Serde T] (key : String) (value : T)
  | closeStream (key : String)
  | startWorkflow (I : Type) [Serde I] (name : String) (input : I) (opts : WorkflowOptions)
  | transaction (T : Type) [Serde T] (opts : TransactionOptions)
  | patch (name : String)

namespace Op

/-- What an operation returns when it succeeds. -/
@[reducible] def Result : Op → Type
  | step T _ | stepWith T _ | transaction T _ => T
  | select T _ => Nat × T
  | sleep _ | send _ _ _ _ | setEvent _ _ _ | writeStream _ _ _ | closeStream _ => Unit
  | now => DateTime
  | uuid => String
  | random => F64
  | recv T _ _ | getEvent T _ _ _ => Option T
  | startWorkflow _ _ _ _ => String
  | patch _ => Bool

/-- The method an operation calls. -/
def run [Serde DateTime] (P : Provider) (ctx : DurableContext) : (o : Op) → Verb o.Result
  | step T name => Durare.step P ctx T name
  | stepWith T opts => Durare.stepWith P ctx T opts
  | select T branches => Durare.select ctx T branches
  | sleep dur => Durare.sleep ctx dur
  | now => Durare.now ctx
  | uuid => Durare.uuid ctx
  | random => Durare.random ctx
  | send T dest message topic => Durare.send ctx T dest message topic
  | recv T topic timeout => Durare.recv P ctx T topic timeout
  | setEvent T key value => Durare.setEvent ctx T key value
  | getEvent T target key timeout => Durare.getEvent P ctx T target key timeout
  | writeStream T key value => Durare.writeStream ctx T key value
  | closeStream key => Durare.closeStream ctx key
  | startWorkflow I name input opts => Durare.startWorkflow ctx I name input opts
  | transaction T opts => Durare.transactionWith P ctx T opts
  | patch name => Durare.patch ctx name

/-- The name an operation records its row under. -/
def name : Op → String
  | step _ name | startWorkflow _ name _ _ => name
  | stepWith _ opts => opts.name
  | transaction _ opts => opts.name
  | select _ _ => "DBOS.select"
  | sleep _ => "DBOS.sleep"
  | now => "DBOS.now"
  | uuid => "DBOS.uuid"
  | random => "DBOS.random"
  | send _ _ _ _ => "DBOS.send"
  | recv _ _ _ => "DBOS.recv"
  | setEvent _ _ _ => "DBOS.setEvent"
  | getEvent _ _ _ _ => "DBOS.getEvent"
  | writeStream _ _ _ => "DBOS.writeStream"
  | closeStream _ => "DBOS.closeStream"
  | patch name => PATCH_PREFIX ++ name

/-- How many sequence numbers an operation takes: a wait takes a second one for its deadline, an
empty select none. -/
def width : Op → Nat
  | select _ branches => if branches = 0 then 0 else 1
  | recv _ _ _ | getEvent _ _ _ _ => 2
  | _ => 1

/-- The result a recorded row stands for.  A row of `send`, `setEvent` or a stream write says only
that the operation is done, a timer row that it has been set, a child row which child it is. -/
def recorded [Serde DateTime] (o : Op) (row : Memory.StepRow) : Except Error o.Result :=
  let r := Memory.stepRowOutcome row
  match o with
  | step T _ | stepWith T _ | transaction T _ => outcomeValue T r
  | select T _ => outcomeValue (Nat × T) r
  | sleep _ => (outcomeValue DateTime r).map fun _ => ()
  | now => outcomeValue DateTime r
  | uuid => outcomeValue String r
  | random => outcomeValue F64 r
  | recv T _ _ | getEvent T _ _ _ => outcomeValue (Option T) r
  | send _ _ _ _ | setEvent _ _ _ | writeStream _ _ _ | closeStream _ =>
    (outcomeValue Value r).map fun _ => ()
  | startWorkflow _ _ _ _ => .ok (row.childWorkflowId.getD "")
  | patch _ => .ok true

end Op

/-- A workflow body that sees a failure of an operation as an `ε`. -/
abbrev Workflow (ε R : Type) := Program Op (fun o => Except ε o.Result) R

end Durare
