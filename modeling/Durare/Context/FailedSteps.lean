import Durare.Context.Divergence
import Durare.Machinery.History

/-!
# Context/FailedSteps — the error of a failed step, live and replayed

A step whose closure finally fails returns the live error and records its text; a replay rebuilds an
error from the text.  The message survives, on either backend and with either built-in serializer.
**The code does not**: whatever failed, what is rebuilt is an application error.

* `FinallyFails` — the last attempt of the closure ended with this error.
* `spec_first` — it is returned as it is, and recorded as its text.
* `spec_replay` — every later execution returns what the text is read as.
-/

namespace Durare

open Option

open Verb

/-- The operation is a step with a closure. -/
def Op.Steps : Op → Prop
  | @Op.step _ _ _ => True
  | @Op.stepWith _ _ _ => True
  | _ => False

namespace FailedSteps

/-! ## How a closure ended -/

/-- What a step makes of the end of its closure: a panic is an application error. -/
def result {T : Type} (name : String) : Caught (Except Error T) → Except Error T
  | .returned r => r
  | .panicked payload => .error (.app ("step `" ++ name ++ "` panicked: " ++ panicMessage payload))

/-- The error a closure ended with, `some none` if it succeeded; other calls are no closures. -/
def ended (name : String) : (e : Eff) → Answer e → Option (Option Error)
  | .closure _ _, r => match result name r with
    | .ok _ => some none
    | .error e => some (some e)
  | _, _ => none

/-- How the last closure of a past ended; the latest call comes first. -/
def lastEnd {W : Type} (name : String) (past : List (Proc.Event Eff Answer W)) :
    Option (Option Error) :=
  past.findSome? fun ev => ended name ev.call ev.answer

/-- The last attempt of the closure of the step `name` ended with the error `e`. -/
def FinallyFails {W : Type} (name : String) (es : List (Proc.Event Eff Answer W))
    (e : Error) : Prop :=
  lastEnd name es.reverse = some (some e)

variable {name : String}

theorem lastEnd_cons {W : Type} {ev : Proc.Event Eff Answer W}
    {past : List (Proc.Event Eff Answer W)} (h : ended name ev.call ev.answer = none) :
    lastEnd name (ev :: past) = lastEnd name past := by
  rw [lastEnd, List.findSome?_cons, h]
  rfl

/-! ## What is recorded, and what is read back -/

/-- The serializer comes with the library and its text round-trips; in memory errors are texts. -/
def BuiltIn : Backend → Prop
  | .memory _ => True
  | .sqlite X s _ => s.BuiltIn ∧ X.Lawful

/-- What an error is read back as. -/
def rebuilt : Backend → Error → StepOutcome
  | .memory _, err => .failure err.message none
  | .sqlite X s _, err =>
    .failure (decodeError X (some s.name) (encodeError X s err)).1
      (decodeError X (some s.name) (encodeError X s err)).2

/-- **The message survives, and the code becomes that of an application error.** -/
theorem intoValueResult_rebuilt {b : Backend} (hb : BuiltIn b) (err : Error) :
    ∃ e, (rebuilt b err).intoValueResult = .error e ∧ e.message = err.message ∧
      e.code = .application := by
  cases b with
  | memory X => exact ⟨.app err.message, rfl, rfl, rfl⟩
  | sqlite X s hs =>
    cases s with
    | json => exact ⟨.app err.message, rfl, rfl, rfl⟩
    | custom => exact hb.1.elim
    | portable =>
      have hread : ∀ pe : PortableWorkflowError, decodeError X (some PORTABLE)
          (X.toText pe.toValue) = (pe.message, some { pe with
            code := PortableWorkflowError.optional pe.code
            data := PortableWorkflowError.optional pe.data }) := by
        intro pe
        rw [decodeError, if_pos rfl, hb.2.fromText_toText, Except.toOption, bind_some,
          PortableWorkflowError.fromValue_toValue]
      have hportable : ∀ pe : PortableWorkflowError, pe.message = err.message →
          encodeError X .portable err = X.toText pe.toValue →
          ∃ e, (rebuilt (.sqlite X .portable hs) err).intoValueResult = .error e ∧
            e.message = err.message ∧ e.code = .application := by
        intro pe hmessage htext
        rw [rebuilt, htext, Serializer.name, hread]
        exact ⟨_, rfl, hmessage, rfl⟩
      cases err with
      | portable pe => exact hportable pe rfl rfl
      | _ => exact hportable ⟨PORTABLE_ERROR_NAME, _, none, none⟩ rfl rfl

variable {id : String} {started : Option Int}

/-- A failure recorded in the database where no row was: the insert fails, or the row is there. -/
theorem record_cases {X : TextCodec} {s : Serializer} {now : DateTime} {text : String} {seq : Int}
    {value : Value} {db : Sqlite.Db} (hnone : db.operationOutputs.lookup (id, seq) = none) :
    let out := Sqlite.recordStepResult X s now id seq name value (some text) started db
    let failure := StepOutcome.failure (decodeError X (some s.name) text).1
      (decodeError X (some s.name) text).2
    out.2 = db ∨ out.1 = .ok failure ∧ ∃ row, out.2.operationOutputs.lookup (id, seq) = some row ∧
      row.functionName = name ∧ stepOutcomeFrom X s row = .ok (some failure) := by
  unfold Sqlite.recordStepResult
  simp only [isSome_some, if_true]
  split
  · exact .inl rfl
  · next db' hinsert =>
      rw [hnone, getD_none, Sqlite.insertOperation_ok hinsert]
      refine .inr ⟨rfl, Sqlite.resultRow s now name none (some text) started, ?_, rfl, rfl⟩
      rw [AList.lookup_insertNew_self, hnone, getD_none]

section

variable {b : Backend} {w w' : World b.provider.State}

/-- A failure recorded where no row was: there is still none, or the row says what the answer
says. -/
theorem handle_recordFailure {seq : Int} {err : Error} {r : Except Error StepOutcome}
    (h : b.provider.handle (.provider (.recordStepResult id seq name .null
      (some (encodeError b.provider.text b.provider.serializer err)) started)) w r w')
    (hnone : b.journal.row w.store id seq = none) :
    b.journal.row w'.store id seq = none ∨ r = .ok (rebuilt b err) ∧
      ∃ row, b.journal.row w'.store id seq = some row ∧ b.journal.name row = name ∧
        b.journal.outcome row = .ok (some (rebuilt b err)) := by
  cases b with
  | memory X =>
    obtain ⟨rfl, rfl⟩ := Memory.handle_recordStepResult h
    have hlog : Memory.log w.store id seq = none := hnone
    refine .inr ⟨by rw [hlog]; rfl, Memory.resultRow w.clock name .null (some err.message) started,
      ?_, rfl, rfl⟩
    exact Memory.log_insertNew_self hlog
  | sqlite X s hs =>
    obtain ⟨uuid, rfl, rfl⟩ := Provider.handle_provider.mp h
    rcases record_cases hnone with hsame | hrow
    · exact .inl (Eq.trans (congrArg (fun db => (Sqlite.journal X s).row db id seq) hsame) hnone)
    · exact .inr hrow

theorem store_getWorkflowStatus {r : Except Error (Option WorkflowStatus)}
    (h : b.provider.handle (.provider (.getWorkflowStatus id)) w r w') : w'.store = w.store := by
  obtain ⟨uuid, -, rfl⟩ := Provider.handle_provider.mp h
  cases b with
  | memory X => rfl
  | sqlite X s hs => rfl

/-! ## The execution that fails -/

/-- A call is answered and remembered; others leave the row at `n` alone. -/
def watching (b : Backend) (ctx : DurableContext) (n : Int) :
    Proc.Judge Eff Answer (Traced Eff Answer (World b.provider.State)) where
  handle := Traced.handle b.provider.handle
  rely x x' := SameRow b.journal ctx n x.world x'.world ∧ x'.past = x.past
  guar _ _ _ _ := True

/-- There is no row at `n` yet, and the last closure ended like this. -/
structure Open (b : Backend) (ctx : DurableContext) (n : Int) (name : String)
    (last : Option (Option Error)) (x : Traced Eff Answer (World b.provider.State)) : Prop where
  none : b.journal.row x.world.store ctx.workflowId n = none
  last : lastEnd name x.past = last

/-- If the closure ended with an error and there is a row, then the error was returned and the row
says what it is read back as. -/
def Returned (b : Backend) (ctx : DurableContext) (n : Int) (name : String) {T : Type}
    (r : Except Error T) (x : Traced Eff Answer (World b.provider.State)) : Prop :=
  ∀ e, lastEnd name x.past = some (some e) → b.journal.row x.world.store ctx.workflowId n = none ∨
    r = .error e ∧ ∃ row, b.journal.row x.world.store ctx.workflowId n = some row ∧
      b.journal.name row = name ∧ b.journal.outcome row = .ok (some (rebuilt b e))

variable {ctx : DurableContext} {n : Int} {name : String} {T : Type} [Serde T]
  {last : Option (Option Error)} {s : CtxState}
  {x x₁ : Traced Eff Answer (World b.provider.State)}

theorem Open.rely (h : Open b ctx n name last x) (hx : (watching b ctx n).rely x x₁) :
    Open b ctx n name last x₁ := ⟨Eq.trans hx.1 h.none, by rw [hx.2]; exact h.last⟩

/-- A call that changes nothing at `n` and is no closure. -/
theorem Open.call {e : Eff} {r : Answer e} (h : Open b ctx n name last x)
    (hr : (watching b ctx n).handle e x r x₁) (he : ended name e r = Option.none)
    (hsame : x₁.world.store = x.world.store) : Open b ctx n name last x₁ where
  none := by rw [hsame, h.none]
  last := by rw [hr.2, lastEnd_cons he, h.last]

omit [Serde T] in
theorem Open.returned {r : Except Error T} (h : Open b ctx n name last x) :
    Returned b ctx n name r x := fun _ _ => .inl h.none

/-- The end of a closure, as its step sees it. -/
def endOf {T : Type} : Except Error T → Option Error
  | .ok _ => none
  | .error e => some e

omit [Serde T] in
theorem spec_runStepCatching {seq : Int} (h : Open b ctx n name last x) :
    wp (watching b ctx n) (runStepCatching T seq name)
      (fun r _ x' => ∃ a, r = .ok a ∧ Open b ctx n name (some (endOf a)) x') s x := by
  refine wp_perform fun x₁ hx₁ r x₂ hr => ⟨trivial, ?_⟩
  have h₁ := h.rely hx₁
  have hsame : x₂.world = x₁.world := hr.1
  have h₂ : Open b ctx n name (some (endOf (result name r))) x₂ := by
    refine ⟨by rw [hsame, h₁.none], ?_⟩
    rw [hr.2, lastEnd, List.findSome?_cons, ended]
    cases result name r with
    | ok a => rfl
    | error e => rfl
  cases r with
  | returned a => exact ⟨a, rfl, h₂⟩
  | panicked payload => exact ⟨_, rfl, h₂⟩

omit [Serde T] in
theorem spec_runWithRetries {seq : Int} {opts : StepOptions}
    (h : Open b ctx n opts.name last x) :
    wp (watching b ctx n) (runWithRetries T seq opts)
      (fun r _ x' => ∃ a, r = .ok a ∧ Open b ctx n opts.name (some (endOf a)) x') s x := by
  refine wp_loop (fun _ _ x => ∃ last, Open b ctx n opts.name last x) ⟨_, h⟩ fun t s x h => ?_
  obtain ⟨last, h⟩ := h
  refine wp_bind (wp_mono ?_ (spec_runStepCatching h))
  rintro _ s' x' ⟨a, rfl, h'⟩
  cases a with
  | ok v => exact ⟨_, rfl, h'⟩
  | error e =>
    rw [after_ok]
    dsimp only
    split
    · exact ⟨_, rfl, h'⟩
    · refine wp_perform fun x₁ hx₁ r x₂ hr => ⟨trivial, ?_⟩
      have hsame : x₂.world = x₁.world := hr.1
      exact ⟨_, (h'.rely hx₁).call hr rfl (by rw [hsame])⟩

theorem spec_checkpoint {v : T} (h : Open b ctx n name (some none) x) :
    wp (watching b ctx n) (checkpoint ctx T n name v started)
      (fun r _ => Returned b ctx n name r) s x := by
  have hother {r : Except Error T} {x : Traced Eff Answer (World b.provider.State)}
      (hx : lastEnd name x.past = some none) : Returned b ctx n name r x := by
    intro e he
    rw [hx] at he
    cases he
  refine wp_toValue_cases (fun _ _ => hother h.last) fun json _ => ?_
  refine wp_ask fun x₁ hx₁ r x₂ hr => ⟨trivial, ?_⟩
  have hlast : lastEnd name x₂.past = some none := by rw [hr.2, lastEnd_cons rfl, hx₁.2, h.last]
  cases r with
  | error e => exact hother hlast
  | ok out => exact hother hlast

/-- **A failure is recorded as its text, and returned as it is.** -/
theorem spec_recordFailure {e : Error} (h : Open b ctx n name (some (some e)) x) :
    wp (watching b ctx n) (recordFailure b.provider ctx T n name e started)
      (fun r _ => Returned b ctx n name r) s x := by
  refine wp_ask fun x₁ hx₁ r x₂ hr => ⟨trivial, ?_⟩
  have hlast : lastEnd name x₂.past = some (some e) := by rw [hr.2, lastEnd_cons rfl, hx₁.2, h.last]
  have hthis {r : Except Error T} (hr : b.journal.row x₂.world.store ctx.workflowId n = none ∨
      r = .error e ∧ ∃ row, b.journal.row x₂.world.store ctx.workflowId n = some row ∧
        b.journal.name row = name ∧ b.journal.outcome row = .ok (some (rebuilt b e))) :
      Returned b ctx n name r x₂ := by
    intro e' he'
    rw [hlast] at he'
    cases he'
    exact hr
  rcases handle_recordFailure hr.1 (h.rely hx₁).none with hnone | ⟨rfl, hrow⟩
  · cases r with
    | error e' => exact hthis (.inl hnone)
    | ok out =>
      cases out with
      | failure message info => exact hthis (.inl hnone)
      | output v => exact hthis (.inl hnone)
  · obtain ⟨message, info, hfailure⟩ : ∃ message info, rebuilt b e = .failure message info := by
      cases b with
      | memory X => exact ⟨_, _, rfl⟩
      | sqlite X s hs => exact ⟨_, _, rfl⟩
    rw [after_ok]
    simp only [hfailure]
    exact hthis (.inr ⟨rfl, hrow⟩)

theorem spec_checkpointed {attempt : Verb (Except Error T)}
    (hattempt : ∀ s x, Open b ctx n name none x → wp (watching b ctx n) attempt
      (fun r _ x' => ∃ a, r = .ok a ∧ Open b ctx n name (some (endOf a)) x') s x)
    (h : Open b ctx n name none x) :
    wp (watching b ctx n) (checkpointed b.provider ctx T n name attempt)
      (fun r _ => Returned b ctx n name r) s x := by
  refine wp_replayOrGuard fun x₁ hx₁ r x₂ hr => ⟨trivial, ?_⟩
  have h₁ := h.rely hx₁
  obtain ⟨hsame, hfound⟩ := b.lawful.lookup hr.1
  have h₂ : Open b ctx n name none x₂ := h₁.call hr rfl (by rw [hsame])
  rw [h₁.none, elim_none] at hfound
  subst hfound
  refine wp_unlessCancelled fun x₃ hx₃ r x₄ hr => ⟨trivial, ?_⟩
  have h₄ : Open b ctx n name none x₄ := (h₂.rely hx₃).call hr rfl (store_getWorkflowStatus hr.1)
  cases r with
  | error e => exact h₄.returned
  | ok found =>
    dsimp only
    split
    · exact h₄.returned
    · refine wp_perform fun x₅ hx₅ started x₆ hr => ⟨trivial, ?_⟩
      have h₆ : Open b ctx n name none x₆ := (h₄.rely hx₅).call hr rfl (by rw [hr.1.2])
      refine wp_bind (wp_mono ?_ (hattempt _ x₆ h₆))
      rintro _ s' x' ⟨a, rfl, h'⟩
      cases a with
      | ok v => exact spec_checkpoint h'
      | error e => exact spec_recordFailure h'

/-- **What the execution of a step whose closure fails returns and records.** -/
theorem spec_first [Serde DateTime] {o : Op} (ho : o.Steps) (hs : s.seq = n)
    (h : Open b ctx n o.name none x) :
    wp (watching b ctx n) (o.run b.provider ctx) (fun r _ => Returned b ctx n o.name r) s x := by
  subst hs
  cases o with
  | step T name => exact wp_nextSeq (spec_checkpointed (fun _ _ h => spec_runStepCatching h) h)
  | stepWith T opts => exact wp_nextSeq (spec_checkpointed (fun _ _ h => spec_runWithRetries h) h)
  | _ => exact ho.elim

/-! ## Replays -/

/-- Calls of a replay; others leave the row at `n` alone. -/
def replaying (b : Backend) (ctx : DurableContext) (n : Int) :
    Proc.Judge Eff Answer (World b.provider.State) where
  handle := b.provider.handle
  rely := SameRow b.journal ctx n
  guar _ _ _ _ := True

/-- **A replay of a failed step returns the error the row is read as.** -/
theorem spec_replay [Serde DateTime] {o : Op} (ho : o.Steps) (hs : s.seq = n) {row : b.journal.Row}
    (hrow : b.journal.row w.store ctx.workflowId n = some row) (hname : b.journal.name row = o.name)
    {out : StepOutcome} {e : Error} (hout : b.journal.outcome row = .ok (some out))
    (he : out.intoValueResult = .error e) :
    wp (replaying b ctx n) (o.run b.provider ctx) (fun r _ _ => r = .error e) s w := by
  subst hs
  have hlook {T : Type} [Serde T] {f : Option T → Verb T} {s' : CtxState} :
      wp (replaying b ctx s.seq) (replayOrGuard ctx T s.seq o.name >>= f)
        (fun r _ _ => r = .error e) s' w := by
    refine wp_replayOrGuard fun w₁ hw₁ r w₂ hr => ⟨trivial, ?_⟩
    obtain ⟨rfl, rfl⟩ := b.lawful.lookup hr
    have hrow₁ : b.journal.row w₂.store ctx.workflowId s.seq = some row := Eq.trans hw₁ hrow
    rw [hrow₁, elim_some, hout]
    simp only [Except.map, map_some, hname, if_true, outcomeValue, he]
    exact rfl
  cases o with
  | step T name => exact wp_nextSeq hlook
  | stepWith T opts => exact wp_nextSeq hlook
  | _ => exact ho.elim

end

/-- **A failed step replays its message always, and its code iff it is that of an application
error.**  The first execution records the row; any number of others may have come between. -/
theorem failure_replays_iff [Serde DateTime] {b : Backend} (hb : BuiltIn b) {ctx : DurableContext}
    {o : Op} (ho : o.Steps) {s s₁ s' s₂ : CtxState} (hs : s'.seq = s.seq)
    {w w₁ w₂ w₃ : World b.provider.State}
    {es es' : List (Proc.Event Eff Answer (World b.provider.State))} {r r' : Except Error o.Result}
    {e : Error} (hnone : b.journal.row w.store ctx.workflowId s.seq = none)
    (hfirst : Proc.Runs b.provider.handle (SameRow b.journal ctx s.seq) (o.run b.provider ctx s)
      w es (r, s₁) w₁)
    (hfails : FinallyFails o.name es e)
    (hrow : (b.journal.row w₁.store ctx.workflowId s.seq).isSome)
    (hkept : SameRow b.journal ctx s.seq w₁ w₂)
    (hagain : Proc.Runs b.provider.handle (SameRow b.journal ctx s.seq) (o.run b.provider ctx s') w₂
      es' (r', s₂) w₃) :
    r = .error e ∧ ∃ e', r' = .error e' ∧ e'.message = e.message ∧
      (e'.code = e.code ↔ e.code = .application) := by
  obtain ⟨es₁, htraced⟩ := hfirst.traced []
  have hopen : Open b ctx s.seq o.name none ⟨w, []⟩ := ⟨hnone, rfl⟩
  obtain ⟨-, x₀, hx₀, hreturned⟩ := Proc.wp_runs (J := watching b ctx s.seq)
    (fun x => ⟨.refl _, rfl⟩) (fun h h' => ⟨h.1.trans h'.1, h'.2.trans h.2⟩) htraced
    ⟨_, ⟨.refl _, rfl⟩, spec_first (s := s) ho rfl hopen⟩
  have hpast : es.reverse ++ [] = x₀.past := hx₀.2
  have hlast : lastEnd o.name x₀.past = some (some e) := by rw [← hpast, List.append_nil, hfails]
  have hsame : b.journal.row w₁.store ctx.workflowId s.seq =
      b.journal.row x₀.world.store ctx.workflowId s.seq := hx₀.1
  rcases hreturned e hlast with hnone₀ | ⟨hr, row, hrow₀, hname, hout⟩
  · rw [hsame, hnone₀] at hrow
    cases hrow
  · obtain ⟨e', he', hmessage, hcode⟩ := intoValueResult_rebuilt hb e
    have hrow₂ : b.journal.row w₂.store ctx.workflowId s.seq = some row :=
      Eq.trans hkept (hsame.trans hrow₀)
    obtain ⟨-, -, -, hr'⟩ := Proc.wp_runs (J := replaying b ctx s.seq) .refl .trans hagain
      ⟨w₂, .refl w₂, spec_replay ho hs hrow₂ hname hout he'⟩
    refine ⟨hr, e', hr', hmessage, ?_⟩
    rw [hcode, eq_comm]

/-! ## Runs -/

section

attribute [local instance] serdeNanos

def payer : DurableContext := ⟨"wf", {}, ⟨[], [], "local", ""⟩⟩

def empty : World Memory.Inner := ⟨{}, ⟨0⟩⟩

/-- The step `charge`, run once with a closure that fails with `err`, and again. -/
def Twice (err : Error) (Q : Except Error Nat → Except Error Nat → Prop) : Prop :=
  Proc.May (Memory.provider noText).handle (SameRow (Memory.journal noText) payer 0)
    ((Op.step Nat "charge").run (Memory.provider noText) payer {}) empty fun es r w =>
      FinallyFails "charge" es err ∧ (Memory.log w.store "wf" 0).isSome ∧
      Proc.May (Memory.provider noText).handle (SameRow (Memory.journal noText) payer 0)
        ((Op.step Nat "charge").run (Memory.provider noText) payer {}) w fun _ r' _ => Q r.1 r'.1

theorem twice (err : Error) :
    Twice err fun r r' => r = .error err ∧ r' = .error (.app err.message) := by
  refine .call told (.call told (.call ⟨rfl, rfl⟩ (.call (r := .returned (.error err)) rfl
    (.call told (.ret ⟨rfl, rfl, ?_⟩)))))
  exact .call told (.ret ⟨rfl, rfl⟩)

theorem failure_replays_iff_app : Twice (.app "declined") fun r r' => r = .error (.app "declined") ∧
    ∃ e', r' = .error e' ∧ e'.message = "declined" ∧ e'.code = .application := by
  obtain ⟨es, ⟨r, s₁⟩, w₁, hfirst, hfails, hrow, es', ⟨r', s₂⟩, w₂, hagain, -⟩ :=
    twice (.app "declined")
  refine ⟨es, (r, s₁), w₁, hfirst, hfails, hrow, es', (r', s₂), w₂, hagain, ?_⟩
  obtain ⟨hr, e', hr', hmessage, hcode⟩ := failure_replays_iff (b := .memory noText)
    (o := .step Nat "charge") (s := {}) trivial trivial rfl rfl hfirst hfails hrow rfl hagain
  exact ⟨hr, e', hr', hmessage, hcode.mpr rfl⟩

/-- **A step that timed out has failed for another reason when it is replayed.** -/
theorem timeout_replays_as_application : Twice .timeout fun r r' => ∃ e e', r = .error e ∧
    r' = .error e' ∧ e.code = .timeout ∧ e'.code = .application := by
  obtain ⟨es, r, w₁, hfirst, hfails, hrow, es', r', w₂, hagain, hr, hr'⟩ := twice .timeout
  exact ⟨es, r, w₁, hfirst, hfails, hrow, es', r', w₂, hagain, _, _, hr, hr', rfl, rfl⟩

end

end FailedSteps

end Durare
