import Durare.Context.Sqlite

/-!
# Context/ReadOnly — the mode of a transactional step over Postgres

`PostgresProvider::run_transaction_step` runs the statements of the SQLite one, with a
`SET TRANSACTION` after `BEGIN`.  The checkpoint is written in the transaction whose mode the
options set.  So a step that is said to be read-only cannot be recorded: its body succeeds, and the
step fails.
-/

namespace Durare.Postgres

open Verb

inductive IsolationLevel where
  | readCommitted
  | repeatableRead
  | serializable
  deriving DecidableEq, Repr

/-- The table of checkpoints. -/
abbrev Operations : Type := Table (String × Int) OperationRow

/-- The options of a transactional step, with the mode of its transactions. -/
structure TransactionOptions extends Durare.TransactionOptions where
  isolation : IsolationLevel := .readCommitted
  readOnly : Bool := false

/-- The mode of a transaction, after the `SET TRANSACTION` that the defaults go without. -/
def TransactionOptions.mode (opts : TransactionOptions) : IsolationLevel × Bool :=
  if opts.isolation ≠ .readCommitted ∨ opts.readOnly then (opts.isolation, opts.readOnly)
  else (.readCommitted, false)

/-- `run_transaction_step`; `BEGIN` and `SET TRANSACTION` are one statement here. -/
def runTransactionStep (X : TextCodec) (s : Serializer) (workflowId : String)
    (seq startedAtMs : Int) (opts : TransactionOptions) : Proc Eff Answer (Except Error Value) :=
  Sqlite.runTransactionStep X s workflowId seq startedAtMs opts.toTransactionOptions

/-- A body that succeeds, and what the database says to a write in a read-only transaction. -/
structure Setting where
  opts : TransactionOptions
  value : Value
  writes : List String
  refusal : Error

variable (c : Setting)

/-- How the statements are answered: none fails, but for a write in a read-only transaction. -/
def Setting.sql : (q : SqlCall) → Operations → Except Error q.Result × Operations
  | .selectOperation id seq, db => (.ok (db.lookup (id, seq)), db)
  | .begin, db | .rollback, db => (.ok (), db)
  | .body _ _, db => (.ok (c.value, if c.opts.readOnly then [] else c.writes), db)
  | .insertOperation _ _ _, db => (if c.opts.mode.2 then .error c.refusal else .ok (), db)
  | .commit id seq _ row, db | .insertFailure id seq row, db =>
    (.ok (), db.insertNew (id, seq) row)
  | .selectStatus _, db => (.ok none, db)

/-- One execution on its own, at any clock readings. -/
def Setting.handle : (e : Eff) → Operations → Answer e → Operations → Prop
  | .sql q, db, r, db' => (r, db') = c.sql q db
  | .utcNow, db, _, db' | .sleep _, db, _, db' => db' = db
  | _, _, _, _ => False

def Setting.judge : Proc.Judge Eff Answer (Operations) where
  handle := c.handle
  rely db db' := db' = db
  guar _ _ _ _ := True

variable {c} {X : TextCodec} {s : Serializer} {id : String} {seq started : Int} {db : Operations}

/-- The row at `(id, seq)` is the only new one, and holds the body's value. -/
def Recorded (c : Setting) (X : TextCodec) (s : Serializer) (id : String) (seq : Int)
    (db db' : Operations) : Prop :=
  ∃ row text, db' = db.insertNew (id, seq) row ∧ row.functionName = c.opts.name ∧
    s.encode X c.value = .ok text ∧ row.output = some text ∧ row.error = none

variable {σ : CtxState}

variable {text : String}

end Durare.Postgres
