import Durare.Context.Divergence

/-!
# Context/Refusals — errors that are observed but not recorded

`send`, `writeStream` and `startWorkflow` leave through `?` when the backend refuses them, before
they come to their checkpoint: there is no row for a refusal.  So a re-execution asks again, and
sees the same error **only if what it was refused for still stands**.

* `Refusal` — the error is one the backend refuses the operation with.
* `StillRefused` — the cause of the refusal, and for the guarded operations that the workflow is not
  cancelled.
* `spec_asked` — an operation without a row returns the refusal iff it is asked and the cause is
  there, and then it leaves no row.
-/

namespace Durare.Refusals

open Option

open Verb Memory

/-! ## Refusals and their causes -/

/-- The text of the refusal of a closed stream. -/
def closedStream (key : String) : Error := .app ("stream `" ++ key ++ "` is already closed")

/-- The application-level errors of the operations that can be refused. -/
def Refusal : Op → Error → Prop
  | @Op.send _ _ dest _ _, e => e = .nonExistentWorkflow dest
  | @Op.writeStream _ _ key _, e => e = closedStream key
  | @Op.startWorkflow _ _ _ _ _, e => (∃ q, e = .unknownQueue q) ∨ ∃ q d, e = .queueDeduplicated q d
  | _, _ => False

/-- The workflow is cancelled. -/
def Cancelled (ctx : DurableContext) (g : Inner) : Prop :=
  (g.workflows.lookup ctx.workflowId).map WorkflowStatus.status = some .cancelled

/-- What the backend refuses the operation for.  An unknown queue stays unknown: the registry is
fixed once the engine runs. -/
def Cause (ctx : DurableContext) (n : Int) : Op → Error → Inner → Prop
  | @Op.send _ _ dest _ _, _, g => g.workflows.lookup dest = none
  | @Op.writeStream _ _ key _, _, g =>
    ((g.streams.lookup (ctx.workflowId, key)).getD []).any Option.isNone
  | @Op.startWorkflow _ _ _ _ opts, .queueDeduplicated q d, g =>
    SlotHeld (childIdOf ctx opts n) q d g
  | _, _, _ => True

/-- The operation asks the cancellation guard. -/
def AsksGuard : Op → Prop
  | @Op.startWorkflow _ _ _ _ _ => False
  | _ => True

/-- The refusal still stands: its cause is there, and the operation comes to it. -/
def StillRefused (ctx : DurableContext) (n : Int) (o : Op) (e : Error) (g : Inner) : Prop :=
  Cause ctx n o e g ∧ (AsksGuard o → ¬Cancelled ctx g)

/-- The arguments are such that the operation comes to the point where it can be refused. -/
def Asked (ctx : DurableContext) : Op → Error → Prop
  | @Op.send _ _ _ message _, _ => ∃ json, Serde.toValue message = .ok json
  | @Op.writeStream _ _ _ value, _ => ∃ json, Serde.toValue value = .ok json
  | @Op.startWorkflow _ _ name input opts, e => (∃ json, Serde.toValue input = .ok json) ∧
      registryKey name opts.configName ∈ ctx.runtime.workflows ∧ match e with
      | .unknownQueue q => opts.queue = some q ∧ q ∉ ctx.runtime.queues
      | .queueDeduplicated q d =>
        opts.queue = some q ∧ q ∈ ctx.runtime.queues ∧ opts.dedupId = some d
      | _ => False
  | _, _ => False

/-- What the refusal depends on does not change while the operation is under way. -/
structure Steady (ctx : DurableContext) (n : Int) (o : Op) (e : Error)
    (w w' : World Inner) : Prop where
  row : Kept ctx.workflowId n w w'
  cancelled : Cancelled ctx w'.store ↔ Cancelled ctx w.store
  cause : Cause ctx n o e w'.store ↔ Cause ctx n o e w.store

/-- The calls of an operation, and what others do meanwhile. -/
def calling (X : TextCodec) (rely : World Inner → World Inner → Prop) :
    Proc.Judge Eff Answer (World Inner) where
  handle := (provider X).handle
  rely := rely
  guar _ _ _ _ := True

variable {T : Type} {r : Except Error Unit} {w' : World Inner}

section

variable {X : TextCodec} {ctx : DurableContext} {n : Int} {o : Op} {e : Error} {s : CtxState}
  {w : World Inner} {rely : World Inner → World Inner → Prop}

theorem Steady.refl (w : World Inner) : Steady ctx n o e w w := ⟨rfl, .rfl, .rfl⟩

theorem Steady.trans {a b c : World Inner} (h : Steady ctx n o e a b) (h' : Steady ctx n o e b c) :
    Steady ctx n o e a c :=
  ⟨h.row.trans h'.row, h'.cancelled.trans h.cancelled, h'.cause.trans h.cause⟩

/-! ## Up to the backend -/

/-- **A guarded operation without a row**: it is stopped by the guard, cannot write its argument, or
asks the backend and records that it is done. -/
theorem wp_guarded [Serde T] {name : String} {a : T} {c : Int → Value → ProviderCall}
    {Q : Except Error Unit → World Inner → Prop}
    (htrans : ∀ {a b c}, rely a b → rely b c → rely a c)
    (hnone : ∀ w₁, rely w w₁ → log w₁.store ctx.workflowId s.seq = none)
    (hcancelled : ∀ w₀, rely w w₀ → Cancelled ctx w₀.store →
      Q (.error (.cancelled ctx.workflowId)) w₀)
    (hwrite : ∀ w₀ m, rely w w₀ → Serde.toValue a = .error m → Q (.error (.serde m)) w₀)
    (hasked : ∀ w₀ w₁ json, rely w w₀ → ¬Cancelled ctx w₀.store → Serde.toValue a = .ok json →
      rely w w₁ → ∀ r w₂, (provider X).handle (.provider (c s.seq json)) w₁ r w₂ →
        (∀ e, r = .error e → Q (.error e) w₂) ∧ ∀ b, r = .ok b → ∀ w', Q (.ok ()) w') :
    wp (calling X rely) (nextSeq >>= fun seq => replayOrGuard ctx Value seq name >>= fun
      | some _ => pure ()
      | none => toValue a >>= fun json => ask (c seq json) >>= fun _ =>
        ask (.recordStepResult ctx.workflowId seq name .null none none) >>= fun _ => pure ())
      (fun r _ w' => Q r w') s w := by
  refine wp_nextSeq (wp_replayOrGuard fun w₁ hw₁ r w₂ hr => ⟨trivial, ?_⟩)
  obtain ⟨rfl, rfl⟩ := handle_getStepResult hr
  rw [hnone w₂ hw₁, map_none]
  refine wp_unlessCancelled fun w₃ hw₃ r w₀ hr => ⟨trivial, ?_⟩
  obtain ⟨rfl, rfl⟩ := handle_getWorkflowStatus hr
  have hw₀ : rely w w₀ := htrans hw₁ hw₃
  dsimp only
  split
  · next h => exact hcancelled w₀ hw₀ h
  · next hlive =>
      refine wp_toValue_cases (fun m hm => hwrite w₀ m hw₀ hm) fun json hjson => ?_
      refine wp_ask fun w₄ hw₄ r w₅ hr => ⟨trivial, ?_⟩
      obtain ⟨herror, hok⟩ := hasked w₀ w₄ json hw₀ hlive hjson (htrans hw₀ hw₄) r w₅ hr
      cases r with
      | error e => exact herror e rfl
      | ok b =>
        rw [after_ok]
        refine wp_ask fun w₆ _ r w₇ hr => ⟨trivial, ?_⟩
        obtain ⟨-, rfl⟩ := handle_recordStepResult hr
        exact hok b rfl w₇

/-- What the operation returned: the refusal exactly if it came to ask and the cause was there when
it did; and no row then. -/
def Answered (ctx : DurableContext) (n : Int) (o : Op) (e : Error) (r : Except Error o.Result)
    (w₀ w₁ w' : World Inner) : Prop :=
  (r = .error e ↔ Asked ctx o e ∧ Cause ctx n o e w₁.store ∧
    (AsksGuard o → ¬Cancelled ctx w₀.store)) ∧ (r = .error e → log w'.store ctx.workflowId n = none)

/-- The operation returned something else, and was not refused. -/
theorem Answered.other {r : Except Error o.Result} {w₀ w₁ : World Inner} (hr : r ≠ .error e)
    (h : Asked ctx o e → Cause ctx n o e w₁.store → AsksGuard o ∧ Cancelled ctx w₀.store) :
    Answered ctx n o e r w₀ w₁ w' := by
  refine ⟨iff_of_false hr ?_, fun h => absurd h hr⟩
  rintro ⟨hasked, hcause, hguard⟩
  obtain ⟨hguarded, hcancelled⟩ := h hasked hcause
  exact hguard hguarded hcancelled

theorem handle_insertNotification {dest topic : String} {message : Value} {key : Option String}
    (h : (provider X).handle (.provider (.insertNotification dest topic message key)) w r w') :
    if w.store.workflows.lookup dest = none then r = .error (.nonExistentWorkflow dest) ∧ w' = w
    else r = .ok () := by
  obtain ⟨uuid, rfl, rfl⟩ := Provider.handle_provider.mp h
  dsimp only [provider, Memory.call]
  obtain ⟨hdest, heq⟩ | ⟨hdest, -, heq⟩ | ⟨hdest, -, heq⟩ :=
    insertNotification_cases w.clock uuid dest topic message key w.store
  all_goals rw [heq]
  · rw [if_pos hdest]
    exact ⟨rfl, rfl⟩
  · rw [if_neg (isSome_iff_ne_none.mp hdest)]
  · rw [if_neg (isSome_iff_ne_none.mp hdest)]

/-- A refusal of a stream write is a closed stream; it leaves the log alone. -/
theorem handle_writeStream {id key : String} {value : Option Value} {functionId : Int}
    (h : (provider X).handle (.provider (.writeStream id key value functionId)) w r w') :
    if ((w.store.streams.lookup (id, key)).getD []).any Option.isNone then
      r = .error (closedStream key) ∧ w'.store.steps = w.store.steps
    else r = .ok () := by
  obtain ⟨uuid, rfl, rfl⟩ := Provider.handle_provider.mp h
  dsimp only [provider, Memory.call, Memory.writeStream]
  split_ifs
  · exact ⟨rfl, rfl⟩
  · rfl

/-- **The insertion of a run, by its cases**: a queue the engine does not know, a delay without a
queue, or what the backend answers. -/
theorem wp_insertRun {rt : Runtime} {id name : String} {input : Value} {opts : WorkflowOptions}
    {parent : Option String} {auth : AuthContext}
    {Q : Except Error (WorkflowStatus × Bool × Bool) → CtxState → World Inner → Prop}
    (htrans : ∀ {a b c}, rely a b → rely b c → rely a c)
    (hqueue : ∀ q, opts.queue = some q → q ∉ rt.queues → Q (.error (.unknownQueue q)) s w)
    (hdelay : opts.queue = none → ∀ m, Q (.error (.app m)) s w)
    (hinsert : (∀ q, opts.queue = some q → q ∈ rt.queues) → ∀ w₁, rely w w₁ → ∀ status,
      status.id = id → status.queueName = opts.queue → status.dedupId = opts.dedupId → ∀ r w₂,
        (provider X).handle (.provider (.insertWorkflowStatus status)) w₁ r w₂ →
          Q (r.map fun a => (a.1, opts.queue.isSome, a.2)) s w₂) :
    wp (calling X rely) (insertRun rt id name input opts parent auth) Q s w := by
  have hask (h : ∀ q, opts.queue = some q → q ∈ rt.queues) :
      wp (calling X rely) (insertRun.insert rt id name input opts parent auth) Q s w := by
    refine wp_perform fun w₁ hw₁ now w₂ hr => ⟨trivial, ?_⟩
    obtain ⟨-, rfl⟩ := hr
    refine wp_perform fun w₃ hw₃ created w₄ hr => ⟨trivial, ?_⟩
    obtain ⟨-, rfl⟩ := hr
    refine wp_ask fun w₅ hw₅ r w₆ hr => ⟨trivial, ?_⟩
    have hQ := hinsert h w₅ (htrans (htrans hw₁ hw₃) hw₅) _ rfl rfl rfl r w₆ hr
    cases r with
    | error e => exact hQ
    | ok a => exact hQ
  unfold insertRun
  cases hq : opts.queue with
  | some q =>
    dsimp only
    split
    · next hunknown => exact hqueue q hq hunknown
    · next hknown =>
        refine hask fun q' hq' => ?_
        cases hq.symm.trans hq'
        exact not_not.mp hknown
  | none =>
    dsimp only
    split
    · exact hdelay hq _
    · refine hask fun q' hq' => ?_
      cases hq.symm.trans hq'

/-- The backend refuses a new run for a slot that is held, and for nothing else. -/
theorem handle_insertWorkflowStatus {status : WorkflowStatus}
    {r : Except Error (WorkflowStatus × Bool)}
    (h : (provider X).handle (.provider (.insertWorkflowStatus status)) w r w') :
    (∃ queue dedup, status.queueName = some queue ∧ status.dedupId = some dedup ∧
      SlotHeld status.id queue dedup w.store ∧ r =
        .error (.queueDeduplicated queue dedup) ∧ w' = w) ∨
    ¬SlotTaken status w.store ∧ ∃ a, r = .ok a := by
  obtain ⟨uuid, rfl, rfl⟩ := Provider.handle_provider.mp h
  dsimp only [provider, Memory.call]
  rcases insertWorkflowStatus_cases status w.store with ⟨queue, dedup, hq, hd, hheld,
    heq⟩ | ⟨hfree, heq⟩
  · rw [heq]
    exact .inl ⟨queue, dedup, hq, hd, hheld, rfl, rfl⟩
  · refine .inr ⟨hfree, ?_⟩
    rw [heq, insertWorkflowStatus.insert]
    split
    · exact ⟨_, rfl⟩
    · exact ⟨_, rfl⟩

section

variable {I : Type} [Serde I] {name : String} {input : I} {opts : WorkflowOptions} {json : Value}
  {w₀ w₁ w' : World Inner}

theorem answered_unknownQueue (he : Refusal (.startWorkflow I name input opts) e)
    (hjson : Serde.toValue input = .ok json)
    (hkey : registryKey name opts.configName ∈ ctx.runtime.workflows) {q : String}
    (hq : opts.queue = some q) (hunknown : q ∉ ctx.runtime.queues)
    (hnone : log w'.store ctx.workflowId n = none) :
    Answered ctx n (.startWorkflow I name input opts) e (.error (.unknownQueue q)) w₀ w₁ w' := by
  rcases he with ⟨q', rfl⟩ | ⟨q', d, rfl⟩
  · by_cases hqq : q = q'
    · subst hqq
      exact ⟨iff_of_true rfl ⟨⟨⟨json, hjson⟩, hkey, hq, hunknown⟩, trivial, fun h => h.elim⟩,
        fun _ => hnone⟩
    · refine .other (by simpa using hqq) fun ⟨_, _, hq', _⟩ _ => absurd ?_ hqq
      exact Option.some.inj (hq.symm.trans hq')
  · refine .other (by simp) fun ⟨_, _, hq', hknown, _⟩ _ => absurd hknown ?_
    cases hq.symm.trans hq'
    exact hunknown

theorem answered_held (he : Refusal (.startWorkflow I name input opts) e)
    (hjson : Serde.toValue input = .ok json)
    (hkey : registryKey name opts.configName ∈ ctx.runtime.workflows)
    (hknown : ∀ q, opts.queue = some q → q ∈ ctx.runtime.queues) {q d : String}
    (hq : opts.queue = some q) (hd : opts.dedupId = some d)
    (hheld : SlotHeld (childIdOf ctx opts n) q d w₁.store)
    (hnone : log w'.store ctx.workflowId n = none) :
    Answered ctx n (.startWorkflow I name input opts) e (.error (.queueDeduplicated q d)) w₀ w₁
      w' := by
  rcases he with ⟨q', rfl⟩ | ⟨q', d', rfl⟩
  · exact .other (by simp) fun ⟨_, _, hq', hunknown⟩ _ => absurd (hknown q' hq') hunknown
  · by_cases hsame : q = q' ∧ d = d'
    · obtain ⟨rfl, rfl⟩ := hsame
      exact ⟨iff_of_true rfl ⟨⟨⟨json, hjson⟩, hkey, hq, hknown q hq, hd⟩, hheld, fun h => h.elim⟩,
        fun _ => hnone⟩
    · refine .other (by simpa using hsame) fun ⟨_, _, hq', _, hd'⟩ _ => absurd ?_ hsame
      exact ⟨Option.some.inj (hq.symm.trans hq'), Option.some.inj (hd.symm.trans hd')⟩

theorem answered_inserted (he : Refusal (.startWorkflow I name input opts) e)
    (hknown : ∀ q, opts.queue = some q → q ∈ ctx.runtime.queues)
    (hfree : ∀ q d, opts.queue = some q → opts.dedupId = some d →
      ¬SlotHeld (childIdOf ctx opts n) q d w₁.store) {child : String} :
    Answered ctx n (.startWorkflow I name input opts) e (.ok child) w₀ w₁ w' := by
  refine .other (by simp) fun hasked hcause => ?_
  rcases he with ⟨q', rfl⟩ | ⟨q', d', rfl⟩
  · exact absurd (hknown q' hasked.2.2.1) hasked.2.2.2
  · exact absurd hcause (hfree q' d' hasked.2.2.1 hasked.2.2.2.2)

end

section

variable (hkept : ∀ {a b}, rely a b → Kept ctx.workflowId s.seq a b)
  (htrans : ∀ {a b c}, rely a b → rely b c → rely a c)
  (hnone : log w.store ctx.workflowId s.seq = none)

include hkept htrans hnone

theorem spec_send [Serde T] {dest topic : String} {message : T} :
    wp (calling X rely) (send ctx T dest message topic) (fun r _ w' => ∃ w₀ w₁, rely w w₀ ∧
      rely w w₁ ∧ Answered ctx s.seq (.send T dest message topic) (.nonExistentWorkflow dest) r w₀
        w₁ w') s w := by
  refine wp_guarded htrans (fun w₁ h => Eq.trans (hkept h) hnone) ?_ ?_ ?_
  · intro w₀ hw₀ hcancelled
    exact ⟨w₀, w₀, hw₀, hw₀, .other (by simp) fun _ _ => ⟨trivial, hcancelled⟩⟩
  · intro w₀ m hw₀ hm
    refine ⟨w₀, w₀, hw₀, hw₀, .other (by simp) fun ⟨json, hok⟩ => ?_⟩
    cases hm.symm.trans hok
  · intro w₀ w₁ json hw₀ hlive hjson hw₁ r w₂ hr
    have hcases := handle_insertNotification hr
    split at hcases
    · next hdest =>
        obtain ⟨rfl, rfl⟩ := hcases
        refine ⟨?_, by simp⟩
        rintro e ⟨rfl⟩
        exact ⟨w₀, w₂, hw₀, hw₁, iff_of_true rfl ⟨⟨json, hjson⟩, hdest, fun _ => hlive⟩,
          fun _ => Eq.trans (hkept hw₁) hnone⟩
    · next hdest =>
        subst hcases
        refine ⟨by simp, fun _ _ w' => ?_⟩
        exact ⟨w₀, w₁, hw₀, hw₁, .other (by simp) fun _ h => absurd h hdest⟩

theorem spec_writeStream [Serde T] {key : String} {value : T} :
    wp (calling X rely) (Durare.writeStream ctx T key value) (fun r _ w' => ∃ w₀ w₁, rely w w₀ ∧
      rely w w₁ ∧ Answered ctx s.seq (.writeStream T key value) (closedStream key) r w₀ w₁ w') s
      w := by
  refine wp_guarded (c := fun seq json => .writeStream ctx.workflowId key (some json) seq) htrans
    (fun w₁ h => Eq.trans (hkept h) hnone) ?_ ?_ ?_
  · intro w₀ hw₀ hcancelled
    exact ⟨w₀, w₀, hw₀, hw₀, .other (by simp [closedStream]) fun _ _ => ⟨trivial, hcancelled⟩⟩
  · intro w₀ m hw₀ hm
    refine ⟨w₀, w₀, hw₀, hw₀, .other (by simp [closedStream]) fun ⟨json, hok⟩ => ?_⟩
    cases hm.symm.trans hok
  · intro w₀ w₁ json hw₀ hlive hjson hw₁ r w₂ hr
    have hcases := handle_writeStream hr
    split at hcases
    · next hclosed =>
        obtain ⟨rfl, hsteps⟩ := hcases
        refine ⟨?_, by simp⟩
        rintro e ⟨rfl⟩
        refine ⟨w₀, w₁, hw₀, hw₁, iff_of_true rfl ⟨⟨json, hjson⟩, hclosed, fun _ => hlive⟩,
          fun _ => ?_⟩
        rw [log, hsteps]
        exact Eq.trans (hkept hw₁) hnone
    · next hopen =>
        subst hcases
        refine ⟨by simp, fun _ _ w' => ?_⟩
        exact ⟨w₀, w₁, hw₀, hw₁, .other (by simp) fun _ h => absurd h hopen⟩

theorem spec_startWorkflow {I : Type} [Serde I] {name : String} {input : I} {opts : WorkflowOptions}
    (he : Refusal (.startWorkflow I name input opts) e) :
    wp (calling X rely) (startWorkflow ctx I name input opts) (fun r _ w' => ∃ w₀ w₁, rely w w₀ ∧
      rely w w₁ ∧ Answered ctx s.seq (.startWorkflow I name input opts) e r w₀ w₁ w') s w := by
  refine wp_nextSeq (wp_ask fun w₁ hw₁ r w₂ hr => ⟨trivial, ?_⟩)
  obtain ⟨rfl, rfl⟩ := (journal_lawful X).checkChild hr
  have hlog : (journal X).row w₂.store ctx.workflowId s.seq = none := Eq.trans (hkept hw₁) hnone
  rw [hlog, bind_none, after_ok]
  -- An exit with another error, for arguments that cannot be refused.
  have hother {e' : Error} (hq : ∀ q, e' ≠ .unknownQueue q) (hd : ∀ q d, e' ≠ .queueDeduplicated q
      d) (hnot : ¬Asked ctx (.startWorkflow I name input opts) e) : ∃ w₀ w₁, rely w w₀ ∧ rely w w₁ ∧
        Answered ctx s.seq (.startWorkflow I name input opts) e (.error e') w₀ w₁ w₂ := by
    refine ⟨w₂, w₂, hw₁, hw₁, .other ?_ fun h => absurd h hnot⟩
    rintro ⟨rfl⟩
    rcases he with ⟨q, h⟩ | ⟨q, d, h⟩
    · exact hq q h
    · exact hd q d h
  refine wp_toValue_cases (fun m hm => ?_) fun json hjson => wp_bind ?_
  · refine hother (by simp) (by simp) fun ⟨⟨json, hok⟩, _⟩ => ?_
    cases hm.symm.trans hok
  unfold spawnChild
  dsimp only
  split
  · next hkey => exact hother (by simp) (by simp) fun ⟨_, hkey', _⟩ => hkey hkey'
  · next hkey =>
      refine wp_bind (wp_insertRun htrans (fun q hq hunknown => ?_) (fun hq m => ?_) ?_)
      · exact ⟨w₂, w₂, hw₁, hw₁, answered_unknownQueue he hjson (not_not.mp hkey) hq hunknown hlog⟩
      · refine hother (by simp) (by simp) fun ⟨_, _, hasked⟩ => ?_
        rcases he with ⟨q', rfl⟩ | ⟨q', d, rfl⟩
        · cases hq.symm.trans hasked.1
        · cases hq.symm.trans hasked.1
      · intro hknown w₃ hw₃ status hid hqueue hdedup r w₄ hr
        have hrely : rely w w₃ := htrans hw₁ hw₃
        rcases handle_insertWorkflowStatus hr with ⟨q, d, hq, hd, hheld, rfl, rfl⟩ | ⟨hfree, a, rfl⟩
        · rw [hid] at hheld
          exact ⟨w₄, w₄, hrely, hrely, answered_held he hjson (not_not.mp hkey) hknown
            (hqueue.symm.trans hq) (hdedup.symm.trans hd) hheld (Eq.trans (hkept hrely) hnone)⟩
        · have hfree' : ∀ q d, opts.queue = some q → opts.dedupId = some d →
              ¬SlotHeld (childIdOf ctx opts s.seq) q d w₃.store := by
            intro q d hq hd hheld
            rw [← hid] at hheld
            exact hfree ⟨q, d, hqueue.trans hq, hdedup.trans hd, hheld⟩
          have hrecord (s' : CtxState) (w' : World Inner) : wp (calling X rely)
              (ask (.recordChildWorkflow ctx.workflowId s.seq name (childIdOf ctx opts s.seq)) >>=
                fun _ => pure (childIdOf ctx opts s.seq))
              (fun r _ w' => ∃ w₀ w₁, rely w w₀ ∧ rely w w₁ ∧
                Answered ctx s.seq (.startWorkflow I name input opts) e r w₀ w₁ w') s' w' := by
            refine wp_ask fun w₅ _ r w₆ hr => ⟨trivial, ?_⟩
            obtain ⟨_, rfl, -⟩ := Provider.handle_provider.mp hr
            exact ⟨w₃, w₃, hrely, hrely, answered_inserted he hknown hfree'⟩
          refine after_ok.mpr ?_
          split
          · exact fun w₅ _ r w₆ _ => ⟨trivial, hrecord _ _⟩
          · exact hrecord _ _

end

/-- **An operation without a row returns the refusal iff it comes to ask while the cause is
there.** -/
theorem spec_asked [Serde DateTime] (he : Refusal o e) (hkept : ∀ {a b}, rely a b →
    Kept ctx.workflowId s.seq a b) (htrans : ∀ {a b c}, rely a b → rely b c → rely a c)
    (hnone : log w.store ctx.workflowId s.seq = none) :
    wp (calling X rely) (o.run (provider X) ctx) (fun r _ w' => ∃ w₀ w₁, rely w w₀ ∧ rely w w₁ ∧
      Answered ctx s.seq o e r w₀ w₁ w') s w := by
  cases o with
  | send T dest message topic =>
    cases he
    exact spec_send hkept htrans hnone
  | writeStream T key value =>
    cases he
    exact spec_writeStream hkept htrans hnone
  | startWorkflow I name input opts => exact spec_startWorkflow hkept htrans hnone he
  | _ => exact he.elim

end

/-- **A refusal repeats iff it stands.**  The operation is refused in the first execution; whatever
else happens to the store, the next execution comes to the operation in `w₂`. -/
theorem refusal_repeats_iff [Serde DateTime] {X : TextCodec} {ctx : DurableContext}
    {o : Op} {e : Error}
    (he : Refusal o e) {s s₁ s' s₂ : CtxState} (hs : s'.seq = s.seq) {w w₁ w₂ w₃ : World Inner}
    {es es' : List (Proc.Event Eff Answer (World Inner))} {r : Except Error o.Result}
    (hnone : log w.store ctx.workflowId s.seq = none)
    (hfirst : Proc.Runs (provider X).handle (Kept ctx.workflowId s.seq) (o.run (provider X) ctx s) w
      es (.error e, s₁) w₁)
    (hkept : Kept ctx.workflowId s.seq w₁ w₂)
    (hagain : Proc.Runs (provider X).handle (Steady ctx s.seq o e) (o.run (provider X) ctx s') w₂
      es' (r, s₂) w₃) :
    r = .error e ↔ StillRefused ctx s.seq o e w₂.store := by
  obtain ⟨-, x, hx, w₀, w₁', -, -, hanswered⟩ := Proc.wp_runs
    (J := calling X (Kept ctx.workflowId s.seq))
    (fun _ => rfl) Kept.trans hfirst ⟨w, rfl, spec_asked he id Kept.trans hnone⟩
  obtain ⟨hasked, -⟩ := hanswered.1.mp rfl
  have hnone₂ : log w₂.store ctx.workflowId s'.seq = none := by
    rw [hs]
    exact Eq.trans hkept (Eq.trans hx (hanswered.2 rfl))
  rw [← hs] at hagain ⊢
  obtain ⟨-, y, -, v₀, v₁, hv₀, hv₁, hagain⟩ := Proc.wp_runs
    (J := calling X (Steady ctx s'.seq o e))
    .refl .trans hagain ⟨w₂, .refl w₂, spec_asked he Steady.row Steady.trans hnone₂⟩
  rw [hagain.1, and_iff_right hasked, StillRefused, hv₁.cause, hv₀.cancelled]

/-! ## Runs -/

section

attribute [local instance] serdeNanos

def sender : DurableContext := ⟨"alice", {}, ⟨[], [], "local", ""⟩⟩

/-- A store in which nothing has happened. -/
def nothing : World Inner := ⟨{}, ⟨0⟩⟩

/-- `bob` is started. -/
def startBob (w : World Inner) : World Inner where
  store := (insertWorkflowStatus
    (.new w.clock "bob" "invoice" .null .pending "local" "") w.store).2
  clock := w.clock

/-- A message to `bob` is refused; then the store changes as `f` says, and it is sent again. -/
def SentTwice (f : World Inner → World Inner) (Q : Except Error Unit → Prop) : Prop :=
  Proc.May (provider noText).handle (Kept "alice" 0)
    ((Op.send Nat "bob" 7 "").run (provider noText) sender {}) nothing fun _ r w =>
      r.1 = .error (.nonExistentWorkflow "bob") ∧ Kept "alice" 0 w (f w) ∧
      Proc.May (provider noText).handle
        (Steady sender 0 (.send Nat "bob" 7 "") (.nonExistentWorkflow "bob"))
        ((Op.send Nat "bob" 7 "").run (provider noText) sender {}) (f w) fun _ r _ => Q r.1

theorem refusal_repeats_iff_send :
    SentTwice id fun r => r = .error (.nonExistentWorkflow "bob") := by
  have hrun {env : World Inner → World Inner → Prop} : Proc.May (provider noText).handle env
      ((Op.send Nat "bob" 7 "").run (provider noText) sender {}) nothing fun _ r w =>
        r.1 = .error (.nonExistentWorkflow "bob") ∧ w = nothing :=
    .call told (.call told (.call told (.ret ⟨rfl, rfl⟩)))
  obtain ⟨es, ⟨_, s₁⟩, _, hfirst, rfl, rfl⟩ := hrun
  obtain ⟨es', ⟨r, s₂⟩, w₂, hagain, -⟩ := hrun
  refine ⟨es, (_, s₁), nothing, hfirst, rfl, rfl, es', (r, s₂), w₂, hagain, ?_⟩
  have hstands : StillRefused sender 0 (.send Nat "bob" 7 "") (.nonExistentWorkflow "bob")
      nothing.store :=
    ⟨rfl, fun _ h => by cases h⟩
  exact (refusal_repeats_iff (o := .send Nat "bob" 7 "") (s := {}) rfl rfl rfl hfirst rfl
    hagain).mpr hstands

/-- **The destination is created in between, and the message that was refused is sent.** -/
theorem refused_send_succeeds : SentTwice startBob fun r => r = .ok () := by
  exact .call told (.call told (.call told (.ret ⟨rfl, rfl, .call told (.call told (.call told
    (.call told (.ret rfl))))⟩)))

end

end Durare.Refusals
