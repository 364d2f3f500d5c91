import Durare.Context.Executions
import Durare.Context.Journal
import Durare.Machinery.History

/-!
# Context/Waiting — what a wait returns, and what its replay returns

`recv` and `getEvent` read what they found at `T` and wrap it; a replay reads the recorded row at
`Option<T>`.  The two readings agree on every value but one: **a JSON null** is read as a `T` by the
execution that found it, and as `None` — a timeout — by every later one.

* `Agrees` — the result is the reading of the row, exactly if no null was delivered.
* `spec_first` — the execution that records the row agrees with it in this sense.
* `spec_later` — every later one returns the reading of the row.
-/

namespace Durare

open List Option

open Verb

/-- The operation waits for a message or an event. -/
def Op.Waits : Op → Prop
  | @Op.recv _ _ _ _ => True
  | @Op.getEvent _ _ _ _ _ => True
  | _ => False

/-- A message or an event is found, and it is a JSON null. -/
def Eff.DeliversNull : (e : Eff) → Answer e → Prop
  | .provider (.consumeNotification _ _ _ _), r => r = .ok (some .null)
  | .provider (.getEventValue _ _), r => r = .ok (some .null)
  | _, _ => False

variable {id : String} {v : Value}

theorem deliversNull_message {topic name : String} {seq : Int} :
    (Eff.provider (.consumeNotification id topic seq name)).DeliversNull (.ok (some v)) ↔
      v = .null := by
  simp [Eff.DeliversNull]

theorem deliversNull_event {key : String} :
    (Eff.provider (.getEventValue id key)).DeliversNull (.ok (some v)) ↔ v = .null := by
  simp [Eff.DeliversNull]

/-- **The two readings of a value**: they differ on null, and only there. -/
theorem read_wrapped_iff {T : Type} [Serde T] :
    (outcomeValue T (.output v)).map some = outcomeValue (Option T) (.output v) ↔ v ≠ .null := by
  constructor
  · rintro h rfl
    cases hv : outcomeValue T (.output .null) with
    | error e =>
      rw [hv] at h
      cases h
    | ok a =>
      rw [hv] at h
      cases h
  · intro hv
    simp only [outcomeValue, StepOutcome.intoValueResult, Serde.fromValue_option_of_ne_null hv]
    cases (Serde.fromValue v : Except String T) with
    | error e => rfl
    | ok a => rfl

namespace Waiting

open Memory

/-- The rest of the system leaves the rows of the workflow alone. -/
def Aside (id : String) (w w' : World Inner) : Prop := ∀ n, log w'.store id n = log w.store id n

/-! ## The execution that records the row -/

section

variable (X : TextCodec) (id : String) (n : Int)

/-- A call is answered and remembered; others leave the rows alone. -/
def watching : Proc.Judge Eff Answer (Traced Eff Answer (World Inner)) where
  handle := Traced.handle (provider X).handle
  rely x x' := Aside id x.world x'.world ∧ x'.past = x.past
  guar _ _ _ _ := True

/-- No null was delivered. -/
def NoNull (past : List (Proc.Event Eff Answer (World Inner))) : Prop :=
  ∀ ev ∈ past, ¬ev.call.DeliversNull ev.answer

/-- There is no row at `n` yet, and no null was delivered. -/
structure Clean (x : Traced Eff Answer (World Inner)) : Prop where
  none : log x.world.store id n = none
  noNull : NoNull x.past

/-- If there is a row, it is recorded under `name`, and the result is its reading exactly if no null
was delivered. -/
def Agrees (name : String) {T : Type} [Serde T] (r : Except Error (Option T))
    (x : Traced Eff Answer (World Inner)) : Prop :=
  ∀ row, log x.world.store id n = some row → row.name = name ∧
    (r = outcomeValue (Option T) (stepRowOutcome row) ↔ NoNull x.past)

end

variable {deadline : Option DateTime} {timeout : Duration}

section

variable {X : TextCodec} {ctx : DurableContext} {n m : Int} {name : String} {T : Type} [Serde T]
  {s : CtxState} {x x₁ : Traced Eff Answer (World Inner)}

theorem Clean.rely (h : Clean ctx.workflowId n x) (hx : (watching X ctx.workflowId).rely x x₁) :
    Clean ctx.workflowId n x₁ := ⟨(hx.1 n).trans h.none, by rw [hx.2]; exact h.noNull⟩

/-- The next call decides whether a null was delivered. -/
theorem Clean.noNull_iff {e : Eff} {r : Answer e} (h : Clean id n x)
    (hr : (watching X id).handle e x r x₁) : NoNull x₁.past ↔ ¬e.DeliversNull r := by
  rw [NoNull, hr.2, forall_mem_cons]
  exact and_iff_left h.noNull

/-- A call that records nothing at `n` and finds no null. -/
theorem Clean.call {id : String} {e : Eff} {r : Answer e} (h : Clean id n x)
    (hr : (watching X id).handle e x r x₁) (hnull : ¬e.DeliversNull r)
    (hlog : log x₁.world.store id n = log x.world.store id n) : Clean id n x₁ :=
  ⟨hlog.trans h.none, (h.noNull_iff hr).mpr hnull⟩

theorem Clean.agrees {r : Except Error (Option T)} (h : Clean id n x) : Agrees id n name r x := by
  intro row hrow
  rw [h.none] at hrow
  cases hrow

theorem spec_deadlineOf [Serde DateTime] (hm : m ≠ n) (h : Clean ctx.workflowId n x) :
    wp (watching X ctx.workflowId) (deadlineOf ctx m timeout deadline)
      (fun _ _ x' => Clean ctx.workflowId n x') s x := by
  have hcalls : (deadlineOf ctx m timeout deadline).Calls fun e => ∀ x r x',
      Clean ctx.workflowId n x → (watching X ctx.workflowId).handle e x r x' →
        Clean ctx.workflowId n x' := by
    refine (steady_deadlineOf ?_ ?_ fun j => ?_).calls
    · intro x r x' h hr
      exact h.call hr (fun hnull => hnull) (by rw [(handle_getStepResult hr.1).1])
    · intro x r x' h hr
      exact h.call hr (fun hnull => hnull) (by rw [hr.1.2])
    · intro x r x' h hr
      refine h.call hr (fun hnull => hnull) ?_
      rw [(handle_recordStepResult hr.1).1]
      exact log_insertNew hm
  exact (hcalls s).keeps (fun _ _ h hx => h.rely hx)
    (fun e he x r x' h hr => ⟨trivial, he x r x' h hr⟩) x h

/-- A row that was just recorded for a value that was just found. -/
theorem agrees_found {row : StepRow} (hrow : log x.world.store id n = some row)
    (hname : row.name = name) (hout : stepRowOutcome row = .output v)
    (hnull : NoNull x.past ↔ v ≠ .null) :
    Agrees id n name ((outcomeValue T (.output v)).map some) x := by
  intro row' hrow'
  obtain rfl : row = row' := Option.some.inj (hrow.symm.trans hrow')
  rw [hout, hnull]
  exact ⟨hname, read_wrapped_iff⟩

/-- A lookup finds nothing, and the work begins unless the workflow is cancelled. -/
theorem spec_lookup {f : Option (Option T) → Verb (Option T)} (h : Clean ctx.workflowId n x)
    (hwork : ∀ x', Clean ctx.workflowId n x' → wp (watching X ctx.workflowId) (f none)
      (fun r _ => Agrees ctx.workflowId n name r) s x') :
    wp (watching X ctx.workflowId) (replayOrGuard ctx (Option T) n name >>= f)
      (fun r _ => Agrees ctx.workflowId n name r) s x := by
  refine wp_replayOrGuard fun x₁ hx₁ r x₂ hr => ⟨trivial, ?_⟩
  have h₁ := h.rely hx₁
  obtain ⟨hsame, hfound⟩ := handle_getStepResult hr.1
  have h₂ : Clean ctx.workflowId n x₂ := h₁.call hr (fun hnull => hnull) (by rw [hsame])
  rw [h₁.none, map_none] at hfound
  subst hfound
  refine wp_unlessCancelled fun x₃ hx₃ r x₄ hr => ⟨trivial, ?_⟩
  obtain ⟨hsame, rfl⟩ := handle_getWorkflowStatus hr.1
  have h₄ : Clean ctx.workflowId n x₄ := (h₂.rely hx₃).call hr (fun hnull => hnull) (by rw [hsame])
  dsimp only
  split
  · exact h₄.agrees
  · exact hwork x₄ h₄

/-- One round of a wait, for its loop. -/
def Round (id : String) (n : Int) (name : String) {T : Type} [Serde T]
    (r : Except Error (Option DateTime ⊕ Option T)) (x : Traced Eff Answer (World Inner)) : Prop :=
  match r with
  | .ok (.inl _) => Clean id n x
  | .ok (.inr v) => Agrees id n name (.ok v) x
  | .error e => Agrees (T := T) id n name (.error e) x

theorem spec_waitOrTimeOut [Serde DateTime] {wait : ChangeWait} (hm : m ≠ n)
    (h : Clean ctx.workflowId n x) :
    wp (watching X ctx.workflowId) (waitOrTimeOut (provider X) ctx T n m name timeout wait deadline)
      (fun r _ => Round ctx.workflowId n name r) s x := by
  refine wp_waitOrTimeOut (fun _ => Clean ctx.workflowId n)
    (wp_mono (fun r s' x' h' => ?_) (spec_deadlineOf hm h)) ?_ ?_ ?_
  · cases r with
    | error e => exact h'.agrees
    | ok d => exact h'
  · intro _ x x₁ now x₂ h hx₁ hr
    exact ⟨trivial, (h.rely hx₁).call hr (fun hnull => hnull) (by rw [hr.1.2])⟩
  · intro _ x x₁ r x₂ h hx₁ hr
    have h₁ := h.rely hx₁
    obtain ⟨hstore, rfl⟩ := handle_recordStepResult hr.1
    refine ⟨trivial, fun row hrow => ?_⟩
    have hnew : log x₂.world.store ctx.workflowId n = some
        (resultRow x₁.world.clock name .null none none) := by
      rw [hstore]
      exact log_insertNew_self h₁.none
    obtain rfl := Option.some.inj (hnew.symm.trans hrow)
    exact ⟨rfl, iff_of_true rfl ((h₁.noNull_iff hr).mpr fun hnull => hnull)⟩
  · intro _ x x₁ d within r x₂ h hx₁ hr
    have hsame : x₂.world = x₁.world := hr.1
    exact ⟨trivial, (h.rely hx₁).call hr (fun hnull => hnull) (by rw [hsame])⟩

theorem spec_loop {body : Option DateTime → Verb (Option DateTime ⊕ Option T)}
    (hbody : ∀ d s x, Clean ctx.workflowId n x → wp (watching X ctx.workflowId) (body d)
      (fun r _ => Round ctx.workflowId n name r) s x) (h : Clean ctx.workflowId n x) :
    wp (watching X ctx.workflowId) (loop body none)
      (fun r _ => Agrees ctx.workflowId n name r) s x := by
  refine wp_loop (fun _ _ => Clean ctx.workflowId n) h fun d s x h => wp_mono ?_ (hbody d s x h)
  rintro (e | d | v) s' x' h'
  · exact h'
  · exact h'
  · exact h'

theorem spec_found {row : StepRow} (hrow : log x.world.store id n = some row)
    (hname : row.name = name) (hout : stepRowOutcome row = .output v)
    (hnull : NoNull x.past ↔ v ≠ .null) :
    wp (watching X id) (Verb.ofExcept (outcomeValue T (.output v)) >>= fun a =>
      pure (.inr (some a))) (fun r _ => Round id n name r) s x := by
  have hagrees := agrees_found (T := T) hrow hname hout hnull
  refine wp_bind ?_
  rw [wp_ofExcept]
  cases hv : outcomeValue T (.output v) with
  | error e =>
    rw [hv] at hagrees
    exact hagrees
  | ok a =>
    rw [hv] at hagrees
    exact hagrees

theorem spec_recv [Serde DateTime] {topic : String} (hs : s.seq = n)
    (h : Clean ctx.workflowId n x) :
    wp (watching X ctx.workflowId) (recv (provider X) ctx T topic timeout)
      (fun r _ => Agrees ctx.workflowId n "DBOS.recv" r) s x := by
  subst hs
  refine wp_nextSeq (wp_nextSeq (spec_lookup h fun x h => spec_loop (fun d s' x h => ?_) h))
  refine wp_ask fun x₁ hx₁ r x₂ hr => ⟨trivial, ?_⟩
  have h₁ := h.rely hx₁
  rcases handle_consumeNotification hr.1 with ⟨-, hsame, rfl⟩ | ⟨msg, i, -, hstore, rfl⟩
  · have hempty : (.ok none : Except Error (Option Value)) ≠ .ok (some .null) := by simp
    exact spec_waitOrTimeOut (m := s.seq + 1) (by omega) (h₁.call hr hempty (by rw [hsame]))
  · have hnew : log x₂.world.store ctx.workflowId s.seq = some
        { name := "DBOS.recv", output := some msg.message } := by
      rw [hstore]
      exact log_insertNew_self (g := { x₁.world.store with notifications := _ }) h₁.none
    have hlog : log x₁.world.store ctx.workflowId s.seq = none := h₁.none
    rw [hlog, getD_none] at hr ⊢
    exact spec_found hnew rfl rfl ((h₁.noNull_iff hr).trans (not_congr deliversNull_message))

theorem spec_getEvent [Serde DateTime] {target key : String} (hs : s.seq = n)
    (h : Clean ctx.workflowId n x) :
    wp (watching X ctx.workflowId) (getEvent (provider X) ctx T target key timeout)
      (fun r _ => Agrees ctx.workflowId n "DBOS.getEvent" r) s x := by
  subst hs
  refine wp_nextSeq (wp_nextSeq (spec_lookup h fun x h => spec_loop (fun d s' x h => ?_) h))
  refine wp_ask fun x₁ hx₁ r x₂ hr => ⟨trivial, ?_⟩
  have h₁ := h.rely hx₁
  obtain ⟨hsame, rfl⟩ := handle_getEventValue hr.1
  have hnone : log x₂.world.store ctx.workflowId s.seq = none := by rw [hsame, h₁.none]
  have hnull := h₁.noNull_iff hr
  cases hv : x₁.world.store.events.lookup (target, key) with
  | none =>
    rw [hv] at hnull
    have hempty : (.ok none : Except Error (Option Value)) ≠ .ok (some .null) := by simp
    exact spec_waitOrTimeOut (m := s.seq + 1) (by omega) ⟨hnone, hnull.mpr hempty⟩
  | some v =>
    rw [hv] at hnull
    rw [after_ok]
    refine wp_ask fun x₃ hx₃ r x₄ hr => ⟨trivial, ?_⟩
    obtain ⟨hstore, rfl⟩ := handle_recordStepResult hr.1
    have hnone₃ : log x₃.world.store ctx.workflowId s.seq = none := (hx₃.1 s.seq).trans hnone
    have hnew : log x₄.world.store ctx.workflowId s.seq = some
        (resultRow x₃.world.clock "DBOS.getEvent" v none none) := by
      rw [hstore]
      exact log_insertNew_self hnone₃
    rw [hnone₃, getD_none] at hr ⊢
    have hpast : NoNull x₄.past ↔ NoNull x₂.past := by
      rw [NoNull, hr.2, forall_mem_cons, hx₃.2]
      exact and_iff_right fun hnull => hnull
    exact spec_found hnew rfl rfl (hpast.trans (hnull.trans (not_congr deliversNull_event)))

/-- **The execution that records the row of a wait agrees with it**, up to nulls. -/
theorem spec_first [Serde DateTime] {o : Op} (ho : o.Waits) (hs : s.seq = n)
    (h : Clean ctx.workflowId n x) :
    wp (watching X ctx.workflowId) (o.run (provider X) ctx) (fun r _ x' => ∀ row,
      log x'.world.store ctx.workflowId n = some row →
        row.name = o.name ∧ (r = o.recorded row ↔ NoNull x'.past)) s x := by
  cases o with
  | recv T topic timeout => exact spec_recv hs h
  | getEvent T target key timeout => exact spec_getEvent hs h
  | _ => exact ho.elim

end

/-! ## Later executions -/

/-- Durable calls; others leave the rows alone. -/
def later (X : TextCodec) (id : String) : Proc.Judge Eff Answer (World Inner) where
  handle := (provider X).handle
  rely := Aside id
  guar e _ _ _ := e.Durable

/-- A wait under way at `n` will return the reading of the row. -/
def Rereads {ε R : Type} [Serde DateTime] (X : TextCodec) (ctx : DurableContext) (n : Int)
    (row : StepRow) : Exec ε R → World Inner → Prop
  | .inside o s p _, w => Proc.Safe (later X ctx.workflowId) p
      (fun r _ => o.Waits → s.seq = n → row.name = o.name → r.1 = o.recorded row) w
  | _, _ => True

section

variable {X : TextCodec} {ctx : DurableContext} {n : Int} {row : StepRow} {s : CtxState}
  {w w' : World Inner}

theorem Aside.refl (w : World Inner) : Aside id w w := fun _ => rfl

theorem Aside.trans {a b c : World Inner} (h : Aside id a b) (h' : Aside id b c) :
    Aside id a c := fun n => (h' n).trans (h n)

theorem spec_reread {T : Type} [Serde T] {name : String} {f : Option (Option T) → Verb (Option T)}
    (hrow : log w.store ctx.workflowId n = some row) (hname : row.name = name)
    (hf : ∀ v, f (some v) = pure v) :
    wp (later X ctx.workflowId) (replayOrGuard ctx (Option T) n name >>= f)
      (fun r _ _ => r = outcomeValue (Option T) (stepRowOutcome row)) s w := by
  refine wp_replayOrGuard fun w₁ hw₁ r w₂ hr => ⟨trivial, ?_⟩
  obtain ⟨rfl, rfl⟩ := handle_getStepResult hr
  rw [hw₁ n, hrow, map_some]
  dsimp only
  rw [if_pos hname]
  cases hv : outcomeValue (Option T) (stepRowOutcome row) with
  | error e => exact rfl
  | ok v =>
    rw [Except.map, after_ok, hf v]
    exact rfl

variable [Serde DateTime]

/-- **A later execution of a wait returns the reading of the row.** -/
theorem spec_later (o : Op) (hrow : log w.store ctx.workflowId n = some row) :
    wp (later X ctx.workflowId) (o.run (provider X) ctx)
      (fun r _ _ => o.Waits → s.seq = n → row.name = o.name → r = o.recorded row) s w := by
  by_cases hthis : o.Waits ∧ s.seq = n ∧ row.name = o.name
  · obtain ⟨ho, rfl, hname⟩ := hthis
    cases o with
    | recv T topic timeout =>
      refine wp_nextSeq (wp_nextSeq (wp_mono ?_ (spec_reread hrow hname fun _ => rfl)))
      exact fun _ _ _ hr _ _ _ => hr
    | getEvent T target key timeout =>
      refine wp_nextSeq (wp_nextSeq (wp_mono ?_ (spec_reread hrow hname fun _ => rfl)))
      exact fun _ _ _ hr _ _ _ => hr
    | _ => exact ho.elim
  · have hcalls : (o.run (provider X) ctx).Calls Eff.Durable :=
      calls_op ((journal_lawful X).statements ctx.workflowId) o
    have hany : wp (later X ctx.workflowId) (o.run (provider X) ctx) (fun _ _ _ => True) s w :=
      (hcalls s).wp (fun _ he _ _ _ _ => he) w
    exact wp_mono (fun _ _ _ _ ho hs hname => absurd ⟨ho, hs, hname⟩ hthis) hany

variable {ε R : Type} {view : Error → ε} {p : Workflow ε R}

/-- **A step of one execution at a time** keeps the row, and what a wait will return. -/
theorem rereads_step {c c' : Single ε R (provider X).State} {l : Label R (provider X).State}
    (hs : Single.Step (provider X) ctx view p (Aside ctx.workflowId) c l c')
    (hrow : log c.world.store ctx.workflowId n = some row)
    (hrun : Rereads X ctx n row c.exec c.world) :
    log c'.world.store ctx.workflowId n = some row ∧ Rereads X ctx n row c'.exec c'.world := by
  cases hs with
  | restart => exact ⟨hrow, trivial⟩
  | @env w w' e henv =>
    refine ⟨(henv n).trans hrow, ?_⟩
    cases e with
    | inside o s q k => exact Proc.Safe.env hrun .trans henv
    | «at» => trivial
    | finished => trivial
  | exec hexec =>
    cases hexec with
    | begin => exact ⟨hrow, _, .refl _, spec_later _ hrow⟩
    | inside hstep =>
      obtain ⟨hdurable, hsafe⟩ := Proc.wp_step Aside.refl hrun hstep
      refine ⟨?_, hsafe⟩
      cases hstep with
      | unfold => exact hrow
      | call hr => exact (move_of_durable (hdurable _ rfl) hr).row_stays hrow
    | returned => exact ⟨hrow, trivial⟩
    | finish => exact ⟨hrow, trivial⟩

theorem Rereads.returned {c c' : Single ε R (provider X).State} {o : Op}
    {r : Except Error o.Result} (hrun : Rereads X ctx n row c.exec c.world) (ho : o.Waits)
    (hname : row.name = o.name)
    (hs : Single.Step (provider X) ctx view p (Aside ctx.workflowId) c (.returned o n r) c') :
    r = o.recorded row := by
  cases hs with
  | exec hexec =>
    cases hexec with
    | returned =>
      obtain ⟨w₀, -, hr⟩ := hrun
      exact hr ho rfl hname

end

/-- **A wait replays what it returned iff no JSON null was delivered to it.**  The first execution
records the row; then anything happens with one execution at a time; then the operation returns
again. -/
theorem wait_replays_iff [Serde DateTime] {ε R : Type} {X : TextCodec} {ctx : DurableContext}
    {view : Error → ε} {p q : Workflow ε R} {o : Op} (ho : o.Waits) {s s₁ : CtxState}
    {w w₁ : World Inner} {es : List (Proc.Event Eff Answer (World Inner))}
    {r r' : Except Error o.Result} {c c' : Single ε R (provider X).State}
    (hnone : log w.store ctx.workflowId s.seq = none)
    (hfirst : Proc.Runs (provider X).handle (Aside ctx.workflowId) (o.run (provider X) ctx s) w es
      (r, s₁) w₁)
    (hrow : (log w₁.store ctx.workflowId s.seq).isSome)
    (hthen : Relation.ReflTransGen
      (fun a b => ∃ l, Single.Step (provider X) ctx view p (Aside ctx.workflowId) a l b)
      ⟨w₁, .at q s₁⟩ c)
    (hagain : Single.Step (provider X) ctx view p (Aside ctx.workflowId) c
      (.returned o s.seq r') c') :
    r' = r ↔ ∀ ev ∈ es, ¬ev.call.DeliversNull ev.answer := by
  obtain ⟨row, hrow⟩ := isSome_iff_exists.mp hrow
  obtain ⟨es', htraced⟩ := hfirst.traced []
  have hclean : Clean ctx.workflowId s.seq ⟨w, []⟩ := ⟨hnone, fun _ h => by cases h⟩
  obtain ⟨-, x₀, hx₀, hfirst⟩ := Proc.wp_runs (J := watching X ctx.workflowId)
    (fun x => ⟨.refl _, rfl⟩) (fun h h' => ⟨h.1.trans h'.1, h'.2.trans h.2⟩) htraced
    ⟨_, ⟨.refl _, rfl⟩, spec_first (s := s) ho rfl hclean⟩
  obtain ⟨hname, hiff⟩ := hfirst row ((hx₀.1 s.seq).symm.trans hrow)
  have hkept : log c.world.store ctx.workflowId s.seq = some row ∧
      Rereads X ctx s.seq row c.exec c.world := by
    clear hagain
    induction hthen with
    | refl => exact ⟨hrow, trivial⟩
    | tail _ hlast ih =>
      obtain ⟨l, hl⟩ := hlast
      exact rereads_step hl ih.1 ih.2
  have hpast : es.reverse ++ [] = x₀.past := hx₀.2
  rw [hkept.2.returned ho hname hagain, eq_comm, hiff, NoNull, ← hpast]
  simp only [append_nil, mem_reverse]

/-! ## Runs -/

section

attribute [local instance] serdeNanos

/-- One message in the mailbox. -/
def inbox (v : Value) : World Inner := ⟨{ notifications := [⟨"m", "wf", "", v, false, 0⟩] }, ⟨0⟩⟩

/-- A workflow that receives one message. -/
def receive (T : Type) [Serde T] : Workflow String (Except String (Option T)) :=
  .op (.recv T "" ⟨0⟩) .done

/-- The execution that received is lost, and in a later one the operation returns `r`. -/
def Again (T : Type) [Serde T] (w : World Inner) (s : CtxState) (r : Except Error (Option T)) :
    Prop :=
  ∃ c c', Relation.ReflTransGen (fun a b => ∃ l, Single.Step (provider noText) wfContext
      Error.message (receive T) (Aside "wf") a l b) ⟨w, .at (receive T) s⟩ c ∧
    Single.Step (provider noText) wfContext Error.message (receive T) (Aside "wf") c
      (.returned (.recv T "" ⟨0⟩) 0 r) c'

theorem wait_replays_iff_number : Proc.May (provider noText).handle (Aside "wf")
    ((Op.recv Nat "" ⟨0⟩).run (provider noText) wfContext {}) (inbox (.number (.int 7)))
    fun _ r w₁ => r.1 = .ok (some 7) ∧ ∃ r', Again Nat w₁ r.2 r' ∧ r' = r.1 := by
  have hrun : Proc.May (provider noText).handle (Aside "wf")
      ((Op.recv Nat "" ⟨0⟩).run (provider noText) wfContext {}) (inbox (.number (.int 7)))
      fun es r w₁ => (∀ ev ∈ es, ¬ev.call.DeliversNull ev.answer) ∧ r.1 = .ok (some 7) ∧
        (log w₁.store "wf" 0).isSome ∧ ∃ r', Again Nat w₁ r.2 r' := by
    refine .call told (.call told (.unfold (.call told (.ret ⟨?_, rfl, rfl, ?_⟩))))
    · refine forall_mem_cons.mpr ⟨fun h => h, forall_mem_cons.mpr ⟨fun h => h, ?_⟩⟩
      refine forall_mem_cons.mpr ⟨fun h => ?_, fun _ h => by cases h⟩
      cases h
    · exact ⟨_, _, _, .head ⟨_, .restart⟩ (.head ⟨_, .exec .begin⟩
        (.head ⟨_, .exec (.inside (.call told))⟩ .refl)), .exec .returned⟩
  obtain ⟨es, r, w₁, hfirst, hnull, hr, hrow, r', hagain⟩ := hrun
  refine ⟨es, r, w₁, hfirst, hr, r', hagain, ?_⟩
  obtain ⟨c, c', hthen, hagain⟩ := hagain
  exact (wait_replays_iff (s := {}) (o := .recv Nat "" ⟨0⟩) trivial rfl hfirst hrow hthen
    hagain).mpr hnull

/-- **A null message is received once, and times out on replay.** -/
theorem null_replays_as_timeout : Proc.May (provider noText).handle (Aside "wf")
    ((Op.recv Unit "" ⟨0⟩).run (provider noText) wfContext {}) (inbox .null)
    fun _ r w₁ => r.1 = .ok (some ()) ∧ Again Unit w₁ r.2 (.ok none) := by
  refine .call told (.call told (.unfold (.call told (.ret ⟨rfl, ?_⟩))))
  exact ⟨_, _, .head ⟨_, .restart⟩ (.head ⟨_, .exec .begin⟩
    (.head ⟨_, .exec (.inside (.call told))⟩ .refl)), .exec .returned⟩

end

end Waiting

end Durare
