import Durare.Machinery.Proc
import Durare.Store.Rows
import Mathlib.Data.Rat.Defs

/-!
# Context/Effects — what an execution does to the outside

Workflow code is a process whose calls are the `Eff`ects below: a call of the backend, a clock
reading, a user closure, a timer, the start of another execution, a statement of a SQL transaction.
A `Provider` is a backend behind the trait object, and `Provider.handle` is how a world — the stored
state and the clock — answers each effect.

`Verb` is the type of a method of `DurableContext`: it threads the sequence counter and may fail.
-/

namespace Durare

/-! ## Effects -/

/-- The message of a caught panic: the payload's text, when it has one. -/
def panicMessage : Option String → String
  | some text => text
  | none => "panicked with a non-string payload"

/-- A future that ran under `catch_unwind`: it returned, or panicked with a payload. -/
inductive Caught (T : Type) where
  | returned (r : T)
  | panicked (payload : Option String)

/-- What a blocked `recv` or `get_event` waits for. -/
inductive ChangeWait where
  | notification (workflowId topic : String)
  | event (workflowId key : String)

/-- Identity carried by an execution. -/
structure AuthContext where
  authenticatedUser : Option String := none
  assumedRole : Option String := none
  authenticatedRoles : List String := []

/-- A fresh v4 uuid: its sixteen bytes, and its hyphenated text. -/
structure Uuid where
  bytes : Vector (Fin 256) 16
  text : String

/-- A statement of a transactional step.  The writes of an open transaction are not visible before
the commit, so they travel with it: `commit` applies the statements the body executed and the
checkpoint, or nothing. -/
inductive SqlCall where
  | selectOperation (workflowId : String) (seq : Int)
  | begin
  | body (workflowId : String) (seq : Int)
  | insertOperation (workflowId : String) (seq : Int) (row : OperationRow)
  | commit (workflowId : String) (seq : Int) (writes : List String) (row : OperationRow)
  | rollback
  | selectStatus (workflowId : String)
  | insertFailure (workflowId : String) (seq : Int) (row : OperationRow)

/-- What a statement returns.  A body returns its value and the write statements it executed. -/
@[reducible] def SqlCall.Result : SqlCall → Type
  | selectOperation _ _ => Option OperationRow
  | body _ _ => Value × List String
  | selectStatus _ => Option Status
  | begin | insertOperation _ _ _ | commit _ _ _ _ | rollback | insertFailure _ _ _ => Unit

/-- One interaction of an execution with the outside. -/
inductive Eff : Type 1 where
  /-- a call of the backend -/
  | provider (c : ProviderCall)
  /-- `chrono::Utc::now()` -/
  | utcNow
  /-- `chrono::Utc::now()` as the producer of the value recorded at `seq` -/
  | produceNow (seq : Int)
  /-- `uuid::Uuid::new_v4()` as the producer of the value recorded at `seq` -/
  | produceUuid (seq : Int)
  /-- the user closure of the step at `seq` -/
  | closure (T : Type) (seq : Int)
  /-- the branches of the select at `seq`, polled until one is ready -/
  | race (T : Type) (seq : Int) (branches : Nat)
  /-- `tokio::time::sleep` -/
  | sleep (d : Duration)
  | awaitChange (wait : ChangeWait) (within : Duration)
  /-- `rt.tasks.spawn`: an execution of the workflow registered under `key` starts -/
  | spawn (id key : String) (input : Value) (deadlineMs : Option Int) (auth : AuthContext)
  | sql (q : SqlCall)
  /-- any other future a workflow body awaits -/
  | outside (T : Type)
  /-- whether the timer set for this instant has fired -/
  | elapsed (deadline : DateTime)
  /-- whether shutdown has begun -/
  | isCancelled
  /-- how many runs this process has going for a partition of a queue -/
  | localRunning (queue partition : String)

/-- How an effect is answered. -/
@[reducible] def Answer : Eff → Type
  | .provider c => Except Error c.Result
  | .utcNow => DateTime
  | .produceNow _ => DateTime
  | .produceUuid _ => Uuid
  | .closure T _ => Caught (Except Error T)
  | .race T _ _ => Nat × T
  | .sleep _ | .awaitChange _ _ | .spawn _ _ _ _ _ => Unit
  | .sql q => Except Error q.Result
  | .outside T => T
  | .elapsed _ | .isCancelled => Bool
  | .localRunning _ _ => Nat

/-- User code runs: the closure of a step, the branches of a select, the body of a transaction, or
the producer of a recorded value. -/
def Eff.RunsClosure : Eff → Prop
  | .closure _ _ | .race _ _ _ | .produceNow _ | .produceUuid _ | .sql (.body _ _) => True
  | .provider _ | .utcNow | .sleep _ | .awaitChange _ _ | .spawn _ _ _ _ _ | .sql _ | .outside _
  | .elapsed _ | .isCancelled | .localRunning _ _ => False

/-! ## Backends and worlds -/

/-- A transactional step's options. -/
structure TransactionOptions where
  name : String
  maxRetries : Nat := 0
  backoffFactor : Rat := 2
  baseInterval : Duration := ⟨100000000⟩
  maxInterval : Duration := ⟨5000000000⟩
  retryIf : Option (Error → Bool) := none

/-- A backend: its state, its methods, and its own way to run a transactional step. -/
structure Provider where
  State : Type
  serializer : Serializer
  text : TextCodec
  supportsListenNotify : Bool
  call : (c : ProviderCall) → DateTime → String → State → Except Error c.Result × State
  runTransactionStep : String → Int → Int → TransactionOptions →
    Proc Eff Answer (Except Error Value)
  sql : (q : SqlCall) → State → Except Error q.Result → State → Prop

/-- The stored state and the clock. -/
structure World (σ : Type) where
  store : σ
  clock : DateTime

/-- How a world answers an effect.  User code may answer anything, a sleep may end at any moment —
what it waits for is checked again against the clock — a deadline is not reported before its time,
and only the backend changes the store. -/
def Provider.handle (P : Provider) :
    (e : Eff) → World P.State → Answer e → World P.State → Prop
  | .provider c, w, r, w' => ∃ uuid, P.call c w.clock uuid w.store = (r, w'.store) ∧
      w'.clock = w.clock
  | .utcNow, w, r, w' | .produceNow _, w, r, w' => r = w.clock ∧ w' = w
  | .race _ _ n, w, r, w' => r.1 < n ∧ w' = w
  | .sql q, w, r, w' => P.sql q w.store r w'.store ∧ w'.clock = w.clock
  | .elapsed deadline, w, r, w' => (r = true → deadline ≤ w.clock) ∧ w' = w
  | .closure _ _, w, _, w' | .produceUuid _, w, _, w' | .sleep _, w, _, w'
  | .awaitChange _ _, w, _, w' | .spawn _ _ _ _ _, w, _, w' | .outside _, w, _, w'
  | .isCancelled, w, _, w' | .localRunning _ _, w, _, w' => w' = w

variable {P : Provider} {e : Eff} {w w' : World P.State}

theorem Provider.handle_clock {r : Answer e} (h : P.handle e w r w') : w'.clock = w.clock := by
  cases e with
  | provider c =>
    obtain ⟨_, -, hclock⟩ := h
    exact hclock
  | utcNow | produceNow | race | elapsed | sql =>
    first
    | exact congrArg World.clock h.2
    | exact h.2
  | _ => exact congrArg World.clock h

variable {c : ProviderCall}

/-- A call of the backend: its method at the current clock reading, with some fresh uuid. -/
theorem Provider.handle_provider {r : Except Error c.Result} :
    P.handle (.provider c) w r w' ↔
      ∃ uuid, r = (P.call c w.clock uuid w.store).1 ∧
        w' = ⟨(P.call c w.clock uuid w.store).2, w.clock⟩ := by
  obtain ⟨store', clock'⟩ := w'
  constructor
  · rintro ⟨uuid, hcall, rfl⟩
    exact ⟨uuid, by rw [hcall], by rw [hcall]⟩
  · rintro ⟨uuid, rfl, hw⟩
    cases hw
    exact ⟨uuid, rfl, rfl⟩

/-- A call of the backend may get the answer of its method. -/
theorem told {P : Provider} {c : ProviderCall} {w : World P.State} : P.handle (.provider c) w
    (P.call c w.clock "" w.store).1 ⟨(P.call c w.clock "" w.store).2, w.clock⟩ :=
  Provider.handle_provider.mpr ⟨"", rfl, rfl⟩

/-- An answer to the calls of the backend and of the clock; waits end at once. -/
def Provider.answer (P : Provider) : (e : Eff) → World P.State → Option (Answer e × World P.State)
  | .provider c, w => some ((P.call c w.clock "" w.store).1,
    ⟨(P.call c w.clock "" w.store).2, w.clock⟩)
  | .utcNow, w => some (w.clock, w)
  | .sleep _, w | .awaitChange _ _, w | .spawn _ _ _ _ _, w => some ((), w)
  | _, _ => none

theorem Provider.handle_answer (e : Eff) (w : World P.State) (r : Answer e) (w' : World P.State)
    (h : P.answer e w = some (r, w')) : P.handle e w r w' := by
  cases e with
  | provider c =>
    cases h
    exact told
  | utcNow =>
    cases h
    exact ⟨rfl, rfl⟩
  | sleep | awaitChange | spawn =>
    cases h
    rfl
  | _ => cases h


/-! ## Methods of the context -/

/-- The mutable part of a context: the sequence counter and the transaction flag. -/
structure CtxState where
  seq : Int := 0
  inTransaction : Bool := false
  deriving DecidableEq, Repr

/-- A method of `DurableContext`: it threads the context's state and may fail. -/
def Verb (α : Type) : Type 1 := CtxState → Proc Eff Answer (Except Error α × CtxState)

namespace Verb

variable {α β σ : Type}

/-- Go on after a success, stop at an error. -/
def andThen (f : α → Verb β) : Except Error α × CtxState →
    Proc Eff Answer (Except Error β × CtxState)
  | (.ok a, s) => f a s
  | (.error e, s) => .ret (.error e, s)

instance : Monad Verb where
  pure a := fun s => .ret (.ok a, s)
  bind x f := fun s => (x s).bind (andThen f)

theorem bind_assoc {γ : Type} (x : Verb α) (f : α → Verb β) (g : β → Verb γ) :
    (x >>= f) >>= g = x >>= fun a => f a >>= g := by
  funext s
  refine (Proc.bind_assoc (x s) _ _).trans (congrArg (x s).bind (funext fun r => ?_))
  obtain ⟨_ | a, s'⟩ := r
  · rfl
  · rfl

/-- Return `Err(e)`. -/
def fail (e : Error) : Verb α := fun s => .ret (.error e, s)

/-- The `?` operator on a result at hand. -/
def ofExcept (r : Except Error α) : Verb α := fun s => .ret (r, s)

/-- `next_seq`: the counter before it is advanced. -/
def nextSeq : Verb Int := fun s => .ret (.ok s.seq, { s with seq := s.seq + 1 })

/-- `current_step_id`. -/
def currentStepId : Verb Int := fun s => .ret (.ok s.seq, s)

/-- An effect that cannot fail. -/
def perform (e : Eff) : Verb (Answer e) := fun s => .call e fun r => .ret (.ok r, s)

/-- A call of the backend, followed by `?`. -/
def ask (c : ProviderCall) : Verb c.Result := fun s => .call (.provider c) fun r => .ret (r, s)

/-- A statement of a SQL transaction, followed by `?`. -/
def query (q : SqlCall) : Verb q.Result := fun s => .call (.sql q) fun r => .ret (r, s)

/-- Look at a result instead of leaving with its error. -/
def attempt (x : Verb α) : Verb (Except Error α) := fun s => (x s).bind fun r => .ret (.ok r.1, r.2)

/-- What a loop does with the result of one round: an error leaves the loop. -/
def turn : Except Error (σ ⊕ β) × CtxState →
    Proc Eff Answer ((σ × CtxState) ⊕ (Except Error β × CtxState))
  | (.ok (.inl t), s) => .ret (.inl (t, s))
  | (.ok (.inr b), s) => .ret (.inr (.ok b, s))
  | (.error e, s) => .ret (.inr (.error e, s))

/-- `loop { … }`: each round goes on with a new local state or leaves with a result. -/
def loop (body : σ → Verb (σ ⊕ β)) (t : σ) : Verb β := fun s =>
  .iter (fun x => (body x.1 x.2).bind turn) (t, s) .ret

/-- A process of its own, run as a part of the method. -/
def ofProc (p : Proc Eff Answer α) : Verb α := fun s => p.bind fun a => .ret (.ok a, s)

/-- `for x in xs { … }`. -/
def forEach (f : σ → Verb Unit) : List σ → Verb Unit
  | [] => pure ()
  | x :: xs => do
      f x
      forEach f xs

/-! ## Preconditions -/

variable {W : Type*} {J : Proc.Judge Eff Answer W}

/-- The precondition of a method for a postcondition on its result and the state it leaves. -/
def wp (J : Proc.Judge Eff Answer W) (x : Verb α) (Q : Except Error α → CtxState → W → Prop)
    (s : CtxState) (w : W) : Prop :=
  Proc.wp J (x s) (fun r => Q r.1 r.2) w

variable {Q Q' : Except Error α → CtxState → W → Prop} {R : Except Error β → CtxState → W → Prop}
  {s : CtxState} {w : W} {x : Verb α}

theorem wp_mono (hQ : ∀ r s w, Q r s w → Q' r s w) (h : wp J x Q s w) :
    wp J x Q' s w := Proc.wp_mono (fun r w => hQ r.1 r.2 w) h

theorem wp_of_eq {y : Verb α} {s' : CtxState} (hxy : x s = y s') (h : wp J y Q s' w) :
    wp J x Q s w := by
  rw [wp, hxy]
  exact h

/-- The continuation of a sequence as a postcondition of its first part. -/
def after (J : Proc.Judge Eff Answer W) (f : α → Verb β)
    (R : Except Error β → CtxState → W → Prop) : Except Error α → CtxState → W → Prop
  | .ok a, s, w => wp J (f a) R s w
  | .error e, s, w => R (.error e) s w

variable {a : α} {f : α → Verb β}

@[simp] theorem after_ok : after J f R (.ok a) s w ↔ wp J (f a) R s w :=
  Iff.rfl

/-- **Sequencing.** -/
theorem wp_bind (h : wp J x (after J f R) s w) : wp J (x >>= f) R s w := by
  refine Proc.wp_bind (Proc.wp_mono ?_ h)
  rintro ⟨_ | a, s'⟩ w' h'
  · exact h'
  · exact h'

/-- A postcondition for the case that the method succeeds. -/
def IfOk (Q : α → CtxState → W → Prop) : Except Error α → CtxState → W → Prop
  | .ok a, s, w => Q a s w
  | .error _, _, _ => True

theorem wp_ifOk_bind {Q : α → CtxState → W → Prop} {R : β → CtxState → W → Prop}
    (hx : wp J x (IfOk Q) s w) (hf : ∀ a s' w', Q a s' w' → wp J (f a) (IfOk R) s' w') :
    wp J (x >>= f) (IfOk R) s w := by
  refine wp_bind (wp_mono ?_ hx)
  rintro (e | a) s' w' h
  · trivial
  · exact hf a s' w' h

theorem wp_ask {f : c.Result → Verb β}
    (h : ∀ w₁, J.rely w w₁ → ∀ r w₂, J.handle (.provider c) w₁ r w₂ →
      J.guar (.provider c) w₁ r w₂ ∧ after J f R r s w₂) :
    wp J (ask c >>= f) R s w :=
  wp_bind h

theorem wp_query {q : SqlCall} {f : q.Result → Verb β}
    (h : ∀ w₁, J.rely w w₁ → ∀ r w₂, J.handle (.sql q) w₁ r w₂ →
      J.guar (.sql q) w₁ r w₂ ∧ after J f R r s w₂) : wp J (query q >>= f) R s w :=
  wp_bind h

theorem wp_perform {f : Answer e → Verb β}
    (h : ∀ w₁, J.rely w w₁ → ∀ r w₂, J.handle e w₁ r w₂ → J.guar e w₁ r w₂ ∧ wp J (f r) R s w₂) :
    wp J (perform e >>= f) R s w :=
  wp_bind h

@[simp] theorem wp_pure : wp J (pure a) Q s w ↔ Q (.ok a) s w := Iff.rfl

variable {r : Except Error α}

@[simp] theorem wp_ofExcept : wp J (ofExcept r) Q s w ↔ Q r s w := Iff.rfl

theorem wp_attempt {Q : Except Error (Except Error α) → CtxState → W → Prop}
    (h : wp J x (fun r s' w' => Q (.ok r) s' w') s w) : wp J (attempt x) Q s w :=
  Proc.wp_bind h

variable {p : Proc Eff Answer α}

theorem wp_ofProc (h : Proc.wp J p (fun a w' => Q (.ok a) s w') w) : wp J (ofProc p) Q s w :=
  Proc.wp_bind h

theorem wp_nextSeq {f : Int → Verb β} (h : wp J (f s.seq) R { s with seq := s.seq + 1 } w) :
    wp J (nextSeq >>= f) R s w := h

theorem wp_currentStepId {f : Int → Verb β} (h : wp J (f s.seq) R s w) :
    wp J (currentStepId >>= f) R s w := h

/-- **The loop rule**: an invariant that each round re-establishes, or leaves with the
postcondition. -/
theorem wp_loop {body : σ → Verb (σ ⊕ β)} (I : σ → CtxState → W → Prop) {t : σ} (hI : I t s w)
    (hbody : ∀ t s w, I t s w → wp J (body t) (fun r s' w' => match r with
      | .ok (.inl t') => I t' s' w'
      | .ok (.inr b) => R (.ok b) s' w'
      | .error e => R (.error e) s' w') s w) :
    wp J (loop body t) R s w := by
  refine ⟨fun x => I x.1 x.2, hI, fun x w' hx => Proc.wp_bind (Proc.wp_mono ?_ (hbody _ _ _ hx))⟩
  rintro ⟨_ | (t' | b), s'⟩ w'' h
  · exact h
  · exact h
  · exact h

theorem wp_ifOk_loop {body : σ → Verb (σ ⊕ β)} {R : β → CtxState → W → Prop}
    (I : σ → CtxState → W → Prop) {t : σ} (hI : I t s w)
    (hbody : ∀ t s w, I t s w →
      wp J (body t) (IfOk fun x s' w' => x.elim (I · s' w') (R · s' w')) s w) :
    wp J (loop body t) (IfOk R) s w := by
  refine wp_loop I hI fun t s w h => wp_mono ?_ (hbody t s w h)
  rintro (e | t' | b) s' w' h'
  · trivial
  · exact h'
  · exact h'

/-! ## Moves of the world -/

/-- However the method ends, it has moved the world by `M`. -/
def Moves (J : Proc.Judge Eff Answer W) (M : W → W → Prop) (x : Verb α) : Prop :=
  ∀ s w, wp J x (fun _ _ w' => M w w') s w

variable {body : σ → Verb (σ ⊕ β)}

section

variable {M : W → W → Prop} {x : Verb α}

theorem Moves.bind (hx : Moves J M x) (hf : ∀ a, Moves J M (f a))
    (htrans : ∀ {a b c}, M a b → M b c → M a c) : Moves J M (x >>= f) := by
  refine fun s w => wp_bind (wp_mono ?_ (hx s w))
  rintro (_ | a) s' w' h
  · exact h
  · exact wp_mono (fun _ _ _ => htrans h) (hf a s' w')

theorem Moves.attempt (hx : Moves J M x) : Moves J M (attempt x) := fun s w => wp_attempt (hx s w)

theorem Moves.loop (h : ∀ t, Moves J M (body t)) (t : σ) (hrefl : ∀ w, M w w)
    (htrans : ∀ {a b c}, M a b → M b c → M a c) : Moves J M (loop body t) := by
  refine fun s w => wp_loop (fun _ _ w' => M w w') (hrefl w) ?_
  intro t s w' hw'
  refine wp_mono ?_ (h t s w')
  rintro (_ | _ | b) _ _ hmove
  · exact htrans hw' hmove
  · exact htrans hw' hmove
  · exact htrans hw' hmove

end

/-! ## Footprints -/

/-- Every effect of the method is in `S`. -/
def Calls (S : Eff → Prop) (x : Verb α) : Prop := ∀ s, (x s).Calls S

variable {S : Eff → Prop}

theorem calls_bind (hx : x.Calls S) (hf : ∀ a, (f a).Calls S) : (x >>= f).Calls S := by
  refine fun s => (hx s).bind ?_
  rintro ⟨e | a, s'⟩
  · trivial
  · exact hf a s'

@[simp] theorem calls_pure : (pure a : Verb α).Calls S := fun _ => trivial

@[simp] theorem calls_fail {e : Error} : (fail e : Verb α).Calls S := fun _ => trivial

@[simp] theorem calls_ofExcept : (ofExcept r).Calls S := fun _ => trivial

@[simp] theorem calls_nextSeq : nextSeq.Calls S := fun _ => trivial

theorem calls_currentStepId_bind {f : Int → Verb α} (h : (f s.seq).Calls S) :
    ((currentStepId >>= f) s).Calls S := h s

theorem calls_perform (h : S e) : (perform e).Calls S := fun _ => ⟨h, fun _ => trivial⟩

theorem calls_ask (h : S (.provider c)) : (ask c).Calls S :=
  fun _ => ⟨h, fun _ => trivial⟩

theorem calls_query {q : SqlCall} (h : S (.sql q)) : (query q).Calls S :=
  fun _ => ⟨h, fun _ => trivial⟩

theorem calls_attempt (h : x.Calls S) : (attempt x).Calls S :=
  fun s => (h s).bind fun _ => trivial

theorem calls_ofProc (h : p.Calls S) : (ofProc p).Calls S :=
  fun _ => h.bind fun _ => trivial

theorem calls_forEach {f : σ → Verb Unit} (h : ∀ x, (f x).Calls S) :
    ∀ xs, (forEach f xs).Calls S
  | [] => calls_pure
  | x :: xs => calls_bind (h x) fun _ => calls_forEach h xs

theorem calls_loop (h : ∀ t, (body t).Calls S) (t : σ) : (loop body t).Calls S := by
  refine fun s => ⟨fun x => (h x.1 x.2).bind ?_, fun _ => trivial⟩
  rintro ⟨e | t' | b, s'⟩
  · trivial
  · trivial
  · trivial

/-- A method without loops, every effect of which is in `S`. -/
def Straight (S : Eff → Prop) (x : Verb α) : Prop := ∀ s, (x s).Straight S

theorem straight_bind (hx : x.Straight S) (hf : ∀ a, (f a).Straight S) : (x >>= f).Straight S := by
  refine fun s => (hx s).bind ?_
  rintro ⟨e | a, s'⟩
  · trivial
  · exact hf a s'

theorem straight_ask (h : S (.provider c)) : (ask c).Straight S :=
  fun _ => ⟨h, fun _ => trivial⟩

/-! ## Methods that leave the context alone -/

/-- Everything may happen. -/
def unconstrained : Proc.Judge Eff Answer Unit :=
  ⟨fun _ _ _ _ => True, fun _ _ => True, fun _ _ _ _ => True⟩

/-- A step is a step whatever the calls answer. -/
theorem step_unconstrained {handle : (e : Eff) → W → Answer e → W → Prop} {p' : Proc Eff Answer α}
    {w' : W} {e : Option (Proc.Event Eff Answer W)} (h : Proc.Step handle p w e p' w') :
    ∃ e', Proc.Step unconstrained.handle p () e' p' () := by
  cases h with
  | call hr => exact ⟨_, .call trivial⟩
  | unfold => exact ⟨_, .unfold⟩

/-- Every effect of the method is in `S`, and it leaves the state of the context as it was. -/
structure Steady (S : Eff → Prop) (x : Verb α) : Prop where
  calls : x.Calls S
  still : ∀ s, wp unconstrained x (fun _ s' _ => s' = s) s ()

theorem Steady.mono {S' : Eff → Prop} (h : x.Steady S) (hS : ∀ e, S e → S' e) :
    x.Steady S' := ⟨fun s => (h.calls s).mono hS, h.still⟩

theorem steady_pure : (pure a : Verb α).Steady S := ⟨calls_pure, fun _ => rfl⟩

theorem steady_fail {e : Error} : (fail e : Verb α).Steady S := ⟨calls_fail, fun _ => rfl⟩

theorem steady_ofExcept : (ofExcept r).Steady S :=
  ⟨calls_ofExcept, fun _ => rfl⟩

theorem steady_perform (h : S e) : (perform e).Steady S :=
  ⟨calls_perform h, fun _ _ _ _ _ _ => ⟨trivial, rfl⟩⟩

theorem steady_ask (h : S (.provider c)) : (ask c).Steady S :=
  ⟨calls_ask h, fun _ _ _ _ _ _ => ⟨trivial, rfl⟩⟩

theorem steady_bind (hx : x.Steady S) (hf : ∀ a, (f a).Steady S) : (x >>= f).Steady S := by
  refine ⟨calls_bind hx.calls fun a => (hf a).calls, fun s => wp_bind (wp_mono ?_ (hx.still s))⟩
  rintro (e | a) s' _ rfl
  · rfl
  · exact (hf a).still s'

theorem steady_loop (h : ∀ t, (body t).Steady S) (t : σ) : (loop body t).Steady S := by
  refine ⟨calls_loop (fun t => (h t).calls) t, fun s => ?_⟩
  refine wp_loop (fun _ s' _ => s' = s) rfl fun t s' _ hs => wp_mono ?_ ((h t).still s')
  rintro (e | t' | b) _ _ rfl
  · exact hs
  · exact hs
  · exact hs

/-- Every effect of the method is in `S`, and it takes `k` sequence numbers. -/
structure Takes (S : Eff → Prop) (k : Nat) (x : Verb α) (s : CtxState) : Prop where
  calls : (x s).Calls S
  counts : wp unconstrained x (fun _ s' _ => s' = { s with seq := s.seq + k }) s ()

theorem Steady.takes (h : x.Steady S) (s : CtxState) : x.Takes S 0 s := by
  refine ⟨h.calls s, wp_mono ?_ (h.still s)⟩
  rintro _ _ _ rfl
  simp

theorem Takes.nextSeq {k : Nat} {f : Int → Verb α}
    (h : (f s.seq).Takes S k { s with seq := s.seq + 1 }) : (nextSeq >>= f).Takes S (k + 1) s := by
  refine ⟨h.calls, wp_nextSeq (wp_mono ?_ h.counts)⟩
  rintro _ _ _ rfl
  have hseq : s.seq + 1 + (k : Int) = s.seq + (k + 1 : Nat) := by omega
  exact congrArg (CtxState.mk · _) hseq

end Verb

end Durare
