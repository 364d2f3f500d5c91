import Durare.Debounce.Ledger

/-!
# Debounce/Parties — what a call and a collector do to the ledger

Calls and executions of collectors work on one store, each step of one in between the steps of the
others.  `sharing` is the judge of one of them: it may assume that the others keep the ledger, and
it has to keep it itself.

* `spec_runCollector` — an execution of a collector, first or repeated, keeps the ledger: it
  acknowledges only what it took, starts its target with its last input, and is over only after
  that.
* `spec_runDebounce` — a call that returns an id has been `Accepted`.
-/

namespace Durare.Debounce

open Option

open Verb Memory

variable {ι : Type} {calls : ι → Call} {own : Option (ι × Nat)} {g g' g'' : Inner}

/-! ## Working on one store -/

/-- The others have moved: they keep the ledger, and leave the log of `own` alone. -/
structure Moved (calls : ι → Call) (own : Option (ι × Nat)) (g g' : Inner) : Prop where
  ledger : Ledger calls g'
  grows : Grows calls g g'
  log : ∀ i m, own = some (i, m) →
    Memory.log g' ((calls i).collectorId m) = Memory.log g ((calls i).collectorId m)

/-- One of the parties. -/
def sharing (X : TextCodec) (calls : ι → Call) (own : Option (ι × Nat)) :
    Proc.Judge Eff Answer (World Inner) where
  handle := (provider X).handle
  rely w w' := Ledger calls w.store → Moved calls own w.store w'.store
  guar _ w _ w' := Kept calls own w.store w'.store

/-- What a party knows later: the ledger, and that nothing was taken back. -/
structure Later (calls : ι → Call) (w w' : World Inner) : Prop where
  ledger : Ledger calls w'.store
  grows : Grows calls w.store w'.store

variable {X : TextCodec} {w w' w'' : World Inner} {s : CtxState}

theorem Later.refl (h : Ledger calls w.store) : Later calls w w := ⟨h, .refl _⟩

theorem Later.trans (h : Later calls w w') (h' : Later calls w' w'') : Later calls w w'' :=
  ⟨h'.ledger, h.grows.trans h'.grows⟩

variable {β : Type}

theorem wp_share {e : Eff} {f : Answer e → Verb β}
    {R : Except Error β → CtxState → World Inner → Prop} (hw : Ledger calls w.store)
    (h : ∀ w₁, Moved calls own w.store w₁.store → ∀ r w₂, (provider X).handle e w₁ r w₂ →
      Kept calls own w₁.store w₂.store ∧ (Later calls w w₂ →
      wp (sharing X calls own) (f r) R s w₂)) :
    wp (sharing X calls own) (perform e >>= f) R s w := by
  refine wp_perform fun w₁ hw₁ r w₂ hr => ?_
  have hmoved := hw₁ hw
  obtain ⟨hkept, hnext⟩ := h w₁ hmoved r w₂ hr
  exact ⟨hkept, hnext ⟨hkept.ledger, hmoved.grows.trans hkept.grows⟩⟩

variable {R : β → CtxState → World Inner → Prop}

theorem wp_shareAsk {c : ProviderCall} {f : c.Result → Verb β} (hw : Ledger calls w.store)
    (h : ∀ w₁, Moved calls own w.store w₁.store → ∀ r w₂, (provider X).handle (.provider c) w₁ r
      w₂ → Kept calls own w₁.store w₂.store ∧ ∀ a, r = .ok a → Later calls w w₂ →
        wp (sharing X calls own) (f a) (IfOk R) s w₂) :
    wp (sharing X calls own) (ask c >>= f) (IfOk R) s w := by
  refine wp_ask fun w₁ hw₁ r w₂ hr => ?_
  have hmoved := hw₁ hw
  obtain ⟨hkept, hnext⟩ := h w₁ hmoved r w₂ hr
  refine ⟨hkept, ?_⟩
  cases r with
  | error e => trivial
  | ok a => exact hnext a rfl ⟨hkept.ledger, hmoved.grows.trans hkept.grows⟩

theorem wp_look {e : Eff} {f : Answer e → Verb β}
    {R : Except Error β → CtxState → World Inner → Prop} (hw : Ledger calls w.store)
    (hsame : ∀ w₁ r w₂, (provider X).handle e w₁ r w₂ → w₂ = w₁)
    (h : ∀ r w', Moved calls own w.store w'.store → Later calls w w' →
      wp (sharing X calls own) (f r) R s w') :
    wp (sharing X calls own) (perform e >>= f) R s w := by
  refine wp_share hw fun w₁ hmoved r w₂ hr => ?_
  obtain rfl := hsame w₁ r w₂ hr
  exact ⟨.refl hmoved.ledger, h r w₂ hmoved⟩

theorem wp_ledger {α : Type} {x : Verb α} {R : Except Error α → CtxState → World Inner → Prop}
    (hw : Ledger calls w.store) (h : wp (sharing X calls own) x R s w) :
    wp (sharing X calls own) x (fun r s' w' => R r s' w' ∧ Ledger calls w'.store) s w :=
  Proc.wp_keep (I := fun w : World Inner => Ledger calls w.store) (fun _ _ _ _ =>
    Kept.ledger) w h hw

/-- **A row is inserted**, is there already, or is refused. -/
theorem handle_insert {status : WorkflowStatus} {res : Except Error (WorkflowStatus × Bool)}
    (hw : Ledger calls w.store)
    (hr : (provider X).handle (.provider (.insertWorkflowStatus status)) w res w')
    (hrow : ∀ g', Grows calls w.store g' → RowOk calls g' status.id status) :
    Kept calls own w.store w'.store ∧
      (∀ a, res = .ok a → (w'.store.workflows.lookup status.id).isSome) := by
  obtain ⟨uuid, rfl, rfl⟩ := Provider.handle_provider.mp hr
  dsimp only [provider, Memory.call]
  rcases insertWorkflowStatus_cases status w.store with ⟨_, _, _, _, _, heq⟩ | ⟨-, heq⟩
  · rw [heq]
    exact ⟨.refl hw, fun _ h => (nomatch h)⟩
  · rw [heq, insertWorkflowStatus.insert]
    split
    · next row hfound => exact ⟨.refl hw, fun _ _ => by rw [hfound]; rfl⟩
    · exact ⟨hw.written hrow, fun _ _ => by rw [AList.lookup_insert]; rfl⟩

variable {auth : AuthContext} {name : String} {opts : WorkflowOptions}

/-- **The insertion of a run**: the row is there if it succeeds. -/
theorem spec_insertRun {rt : Runtime} {id : String} {input : Value} {parent : Option String}
    (hw : Ledger calls w.store)
    (hrow : ∀ nowMs created g', Grows calls w.store g' →
      RowOk calls g' id (newRun rt nowMs created id name input opts parent auth)) :
    wp (sharing X calls own) (insertRun rt id name input opts parent auth)
      (fun r _ w' => Later calls w w' ∧
        ∀ a, r = .ok a → (w'.store.workflows.lookup id).isSome) s w := by
  have hinsert : wp (sharing X calls own) (insertRun.insert rt id name input opts parent auth)
      (fun r _ w' => Later calls w w' ∧
        ∀ a, r = .ok a → (w'.store.workflows.lookup id).isSome) s w := by
    refine wp_look hw (fun _ _ _ hr => hr.2) fun now w₁ _ h₁ => ?_
    refine wp_look h₁.ledger (fun _ _ _ hr => hr.2) fun created w₂ _ h₂ => ?_
    refine wp_ask fun w₃ hw₃ r w₄ hr => ?_
    have hm₃ := hw₃ h₂.ledger
    obtain ⟨hkept, hthere⟩ : Kept calls own w₃.store w₄.store ∧ _ :=
      handle_insert hm₃.ledger hr fun g' hg' =>
        hrow _ _ g' (((h₁.trans h₂).grows.trans hm₃.grows).trans hg')
    have hlater : Later calls w w₄ :=
      ⟨hkept.ledger, ((h₁.trans h₂).grows.trans hm₃.grows).trans hkept.grows⟩
    refine ⟨hkept, ?_⟩
    cases r with
    | error e => exact ⟨hlater, fun _ h => (nomatch h)⟩
    | ok a => exact ⟨hlater, fun _ _ => hthere a rfl⟩
  have hfail : ∀ e : Error, wp (sharing X calls own) (fail e : Verb (WorkflowStatus × Bool × Bool))
      (fun r _ w' => Later calls w w' ∧
        ∀ a, r = .ok a → (w'.store.workflows.lookup id).isSome) s w :=
    fun _ => ⟨.refl hw, fun _ h => (nomatch h)⟩
  unfold insertRun
  split
  · split
    · exact hfail _
    · exact hinsert
  · split
    · exact hfail _
    · exact hinsert

/-! ## A collector -/

variable {row : WorkflowStatus} {timeout : Duration}

section Collector

variable {i : ι} {m : Nat} {ctx : DurableContext} {n : Int}

/-- The log of a collector. -/
abbrev logOf (calls : ι → Call) (i : ι) (m : Nat) (w : World Inner) : Log :=
  log w.store ((calls i).collectorId m)

theorem Moved.absent (h : Moved calls (some (i, m)) w.store w'.store)
    (hnone : logOf calls i m w n = none) : logOf calls i m w' n = none := by
  rw [← hnone]
  exact congrFun (h.log i m rfl) n

variable (hctx : ctx.workflowId = (calls i).collectorId m)

include hctx

/-- **A lookup, by what stands in the log**: the row says what is returned, or there is none. -/
theorem wp_replayed {T : Type} [Serde T] {expected : String} {f : Option T → Verb β}
    (hw : Ledger calls w.store)
    (hfound : ∀ v w', Later calls w w' → reading T expected (logOf calls i m w') n = some v →
      wp (sharing X calls (some (i, m))) (f (some v)) (IfOk R) s w')
    (hnone : ∀ w', Later calls w w' → logOf calls i m w' n = none →
      wp (sharing X calls (some (i, m))) (f none) (IfOk R) s w') :
    wp (sharing X calls (some (i, m))) (replayOrGuard ctx T n expected >>= f) (IfOk R) s w := by
  refine wp_replayOrGuard fun w₁ hw₁ r w₂ hr => ?_
  have hmoved := hw₁ hw
  obtain ⟨rfl, rfl⟩ := handle_getStepResult hr
  refine ⟨.refl hmoved.ledger, ?_⟩
  rw [hctx]
  have hlater : Later calls w w₂ := ⟨hmoved.ledger, hmoved.grows⟩
  cases hrow : log w₂.store ((calls i).collectorId m) n with
  | some row =>
    dsimp only [map_some]
    by_cases hname : row.name = expected
    · rw [if_pos hname]
      cases hv : outcomeValue T (stepRowOutcome row) with
      | error e => trivial
      | ok v => exact hfound v w₂ hlater (reading_eq_some hrow hname hv)
    · rw [if_neg hname]
      trivial
  | none =>
    refine wp_unlessCancelled fun w₃ hw₃ r w₄ hr => ?_
    have hmoved' := hw₃ hmoved.ledger
    obtain ⟨rfl, rfl⟩ := handle_getWorkflowStatus hr
    refine ⟨.refl hmoved'.ledger, ?_⟩
    dsimp only
    split
    · trivial
    · exact hnone w₄ (hlater.trans ⟨hmoved'.ledger, hmoved'.grows⟩) (hmoved'.absent hrow)

theorem wp_record (hd : Distinct calls) {value : Value} {started : Option Int}
    {f : StepOutcome → Verb β} (hw : Ledger calls w.store) (hnone : logOf calls i m w n = none)
    (hname : name = "DBOS.recv" → value = .null)
    (h : ∀ w' row, Later calls w w' → logOf calls i m w' n = some row → row.name = name →
      stepRowOutcome row = .output value → (∀ k, k ≠ n → logOf calls i m w k = none →
        logOf calls i m w' k = none) →
      wp (sharing X calls (some (i, m))) (f (.output value)) (IfOk R) s w') :
    wp (sharing X calls (some (i, m)))
      (ask (.recordStepResult ctx.workflowId n name value none started) >>= f) (IfOk R) s w := by
  refine wp_shareAsk hw fun w₁ hmoved r w₂ hr => ?_
  rw [hctx] at hr
  obtain ⟨rfl, rfl⟩ := handle_recordStepResult hr
  have hnone₁ : log w₁.store ((calls i).collectorId m) n = none := hmoved.absent hnone
  have hok : ∀ g', Grows calls w₁.store g' →
      LogOk calls g' i m (resultRow w₁.clock name value none started) := fun _ _ =>
    -- The row is no child and no message.
    ⟨fun h => .inl (by rw [hname h]; rfl), nofun⟩
  refine ⟨hmoved.ledger.recorded hd hok, fun a ha hlater => ?_⟩
  rw [hnone₁] at ha
  obtain rfl := Except.ok.inj ha
  refine h _ _ hlater (log_insertNew_self hnone₁) rfl rfl fun k hk hnone' => ?_
  exact (log_insertNew (Ne.symm hk)).trans (hmoved.absent hnone')

/-- **A time step**, read off the log. -/
theorem spec_time (hd : Distinct calls) (hname : name ≠ "DBOS.recv") (hw : Ledger calls w.store) :
    wp (sharing X calls (some (i, m))) (timeStep (provider X) ctx name)
      (IfOk fun t s' w' => s'.seq = s.seq + 1 ∧ Later calls w w' ∧
        reading Int name (logOf calls i m w') s.seq = some t) s w := by
  refine wp_nextSeq (wp_replayed hctx hw (fun t w₁ h₁ ht => ⟨rfl, h₁, ht⟩) fun w₁ h₁ hnone => ?_)
  refine wp_look h₁.ledger (fun _ _ _ hr => hr.2) fun started w₂ hm₂ h₂ => ?_
  refine wp_bind (wp_look h₂.ledger (fun _ _ _ hr => hr.2) fun now w₃ hm₃ h₃ => ?_)
  refine wp_toValue rfl (wp_record hctx hd h₃.ledger (hm₃.absent (hm₂.absent hnone))
    (fun h => (hname h).elim) fun w₄ row h₄ hrow hrname hout _ => ?_)
  refine ⟨rfl, ((h₁.trans h₂).trans h₃).trans h₄, ?_⟩
  exact reading_eq_some hrow hrname (by rw [hout]; rfl)

theorem spec_deadline (hd : Distinct calls) [Serde DateTime] {deadline : Option DateTime}
    (hw : Ledger calls w.store) (hnone : logOf calls i m w n = none) :
    wp (sharing X calls (some (i, m))) (deadlineOf ctx (n + 1) timeout deadline)
      (IfOk fun _ s' w' => s' = s ∧ Later calls w w' ∧ logOf calls i m w' n = none) s w := by
  cases deadline with
  | some d => exact ⟨rfl, .refl hw, hnone⟩
  | none =>
    refine wp_shareAsk hw fun w₁ hm₁ r w₂ hr => ?_
    rw [hctx] at hr
    obtain ⟨rfl, rfl⟩ := handle_getStepResult hr
    refine ⟨.refl hm₁.ledger, fun found hfound h₁ => ?_⟩
    obtain rfl := Except.ok.inj hfound
    have hnone₁ := hm₁.absent hnone
    cases hrow : log w₂.store ((calls i).collectorId m) (n + 1) with
    | some row =>
      dsimp only [map_some]
      split
      · trivial
      · cases outcomeValue DateTime (stepRowOutcome row) with
        | error e => trivial
        | ok d => exact ⟨rfl, h₁, hnone₁⟩
    | none =>
      dsimp only [map_none]
      refine wp_look h₁.ledger (fun _ _ _ hr => hr.2) fun now w₃ hm₃ h₃ => ?_
      refine wp_toValue_cases (fun _ _ => trivial) fun json _ => ?_
      refine wp_record hctx hd h₃.ledger (hm₃.absent hrow) (fun h => absurd h (by decide))
        fun w₄ row h₄ _ _ _ hother => ?_
      cases outcomeValue DateTime (.output json) with
      | error e => trivial
      | ok d => exact ⟨rfl, (h₁.trans h₃).trans h₄, hother n (by omega) (hm₃.absent hnone₁)⟩

/-- **A wait for a message**, read off the log. -/
theorem spec_receive (hd : Distinct calls) [Serde DateTime] (hw : Ledger calls w.store) :
    wp (sharing X calls (some (i, m))) (recv (provider X) ctx DebounceMessage DEBOUNCER_TOPIC
      timeout) (IfOk fun got s' w' => s'.seq = s.seq + 2 ∧ Later calls w w' ∧
        reading (Option DebounceMessage) "DBOS.recv" (logOf calls i m w') s.seq =
          some got) s w := by
  refine wp_nextSeq (wp_nextSeq (wp_replayed hctx hw
    (fun got w₁ h₁ hgot => ⟨Int.add_assoc _ 1 1, h₁, hgot⟩) fun w₁ h₁ hnone => ?_))
  refine wp_ifOk_loop (fun _ s' w' => s'.seq = s.seq + 1 + 1 ∧ Later calls w w' ∧
    logOf calls i m w' s.seq = none) ⟨rfl, h₁, hnone⟩ fun deadline s' w' hI => ?_
  obtain ⟨hseq, h, hnone⟩ := hI
  refine wp_shareAsk h.ledger fun w₂ hm₂ r w₃ hr => ?_
  have hnone₂ : log w₂.store ((calls i).collectorId m) s.seq = none := hm₂.absent hnone
  rw [hctx] at hr
  rcases handle_consumeNotification hr with ⟨-, rfl, rfl⟩ | ⟨note, place, holdest, rfl, rfl⟩
  · refine ⟨.refl hm₂.ledger, fun found hfound h₂ => ?_⟩
    obtain rfl := Except.ok.inj hfound
    refine wp_ifOk_bind (spec_deadline hctx hd h₂.ledger hnone₂) fun d s₄ w₄ h₄ => ?_
    obtain ⟨rfl, h₄, hnone₄⟩ := h₄
    refine wp_look h₄.ledger (fun _ _ _ hr => hr.2) fun now w₅ hm₅ h₅ => ?_
    have hall := ((h.trans h₂).trans h₄).trans h₅
    split
    · refine wp_record hctx hd h₅.ledger (hm₅.absent hnone₄) (fun _ => rfl)
        fun w₆ row h₆ hrow hname hout _ => ?_
      exact ⟨hseq.trans (Int.add_assoc _ 1 1), hall.trans h₆,
        reading_eq_some hrow hname (by rw [hout]; rfl)⟩
    · refine wp_look h₅.ledger (fun _ _ _ hr => hr) fun _ w₆ hm₆ h₆ => ?_
      exact ⟨hseq, hall.trans h₆, hm₆.absent (hm₅.absent hnone₄)⟩
  · obtain ⟨hplace, -, hdest, htopic⟩ := oldest_mem holdest
    have hmessage : IsMessage calls i note.message :=
      hm₂.ledger.mail i m note (List.mem_of_getElem? hplace) hdest htopic
    have hok : ∀ g', Grows calls { w₂.store with
        notifications := markConsumed w₂.store.notifications place } g' →
        LogOk calls g' i m { name := "DBOS.recv", output := some note.message } := fun _ _ =>
      ⟨fun _ => .inr ⟨note.message, hmessage, rfl⟩, fun _ hc => (nomatch hc)⟩
    have hmarked : Kept calls (some (i, m)) w₂.store { w₂.store with
        notifications := markConsumed w₂.store.notifications place } := hm₂.ledger.marked place
    refine ⟨hmarked.trans (hmarked.ledger.recorded hd hok), fun found hfound h₃ => ?_⟩
    rw [hnone₂] at hfound
    obtain rfl := Except.ok.inj hfound
    refine wp_bind ?_
    change after _ _ _ ((DebounceMessage.read note.message).mapError .serde) s' _
    obtain ⟨j, k, -, heq⟩ := hmessage
    have hread : DebounceMessage.read note.message = .ok ((calls j).message k) := by rw [heq]; rfl
    rw [hread]
    refine ⟨hseq.trans (Int.add_assoc _ 1 1), h.trans h₃, ?_⟩
    refine reading_eq_some (log_insertNew_self hnone₂) rfl ?_
    change ((Serde.fromValue note.message : Except String (Option DebounceMessage)).mapError _) = _
    rw [heq]
    rfl

theorem spec_ack (hd : Distinct calls) {key : String} (hw : Ledger calls w.store)
    (htook : Took calls w.store i m key) :
    wp (sharing X calls (some (i, m))) (setEvent ctx Bool key true)
      (IfOk fun _ s' w' => s'.seq = s.seq + 1 ∧ Later calls w w') s w := by
  refine wp_nextSeq (wp_replayed hctx hw (fun _ w₁ h₁ _ => ⟨rfl, h₁⟩) fun w₁ h₁ hnone => ?_)
  refine wp_toValue rfl (wp_shareAsk h₁.ledger fun w₂ hm₂ r w₃ hr => ?_)
  rw [hctx] at hr
  obtain ⟨rfl, rfl⟩ := handle_upsertEvent hr
  refine ⟨hm₂.ledger.acked hd (htook.mono (h₁.grows.trans hm₂.grows)), fun _ _ h₃ => ?_⟩
  refine wp_record hctx hd h₃.ledger (hm₂.absent hnone) (fun _ => rfl) fun w₄ _ h₄ _ _ _ _ => ?_
  exact ⟨rfl, (h₁.trans h₃).trans h₄⟩

/-- An execution between two rounds. -/
structure BetweenRounds (i : ι) (m : Nat) (start : Int) (st : Int × Value) (s : CtxState)
    (w : World Inner) (calls : ι → Call) (r : Round) : Prop where
  ledger : Ledger calls w.store
  leads : Leads ((calls i).debouncerInput m) (logOf calls i m w) start r
  seq : r.seq = s.seq
  target : r.targetMs = st.1
  current : r.current ((calls i).debouncerInput m) = st.2

variable {r : Round} {start : Int}

/-- **One round of an execution is a round of the log.** -/
theorem spec_play (hd : Distinct calls) [Serde DateTime] {st : Int × Value}
    (h : BetweenRounds i m start st s w calls r) :
    wp (sharing X calls (some (i, m)))
      (debounceRound (provider X) ctx ((calls i).debouncerInput m) start st)
      (IfOk fun out s' w' => out.elim (fun st' => ∃ r', BetweenRounds i m start st' s' w' calls r')
        fun v => Ledger calls w'.store ∧ ∃ r', v = r'.current ((calls i).debouncerInput m) ∧
          Halts ((calls i).debouncerInput m) (logOf calls i m w') start r') s w := by
  refine wp_ifOk_bind (spec_time hctx hd (by decide) h.ledger) fun now s₁ w₁ h₁ => ?_
  obtain ⟨hseq₁, h₁, hnow⟩ := h₁
  rw [← h.seq] at hseq₁ hnow
  have hleads := h.leads.mono (h₁.grows.logs i m)
  by_cases hdone : i64 (st.1 - now) ≤ 0
  · rw [if_pos hdone]
    refine ⟨h₁.ledger, r, h.current.symm, hleads, ?_⟩
    rw [DebouncerInput.next, hnow, bind_some, h.target, if_pos hdone]
  rw [if_neg hdone]
  refine wp_ifOk_bind (spec_receive hctx hd h₁.ledger) fun got s₂ w₂ h₂ => ?_
  obtain ⟨hseq₂, h₂, hgot⟩ := h₂
  rw [hseq₁] at hseq₂ hgot
  have hleads₂ := hleads.mono (h₂.grows.logs i m)
  have hnext : ((calls i).debouncerInput m).next (logOf calls i m w₂) start r =
      some (got.map fun msg => ((calls i).debouncerInput m).took start now msg r) := by
    rw [DebouncerInput.next, reading_mono (h₂.grows.logs i m) hnow, bind_some, h.target,
      if_neg hdone, hgot, map_some]
  cases got with
  | none => exact ⟨h₂.ledger, r, h.current.symm, hleads₂, hnext⟩
  | some msg =>
    have htook := hleads₂.next hnext
    dsimp only
    by_cases hid : msg.id = ""
    · rw [if_pos hid]
      have hseq : (((calls i).debouncerInput m).took start now msg r).seq = s₂.seq :=
        (if_pos hid).trans (by omega)
      exact ⟨_, h₂.ledger, htook, hseq, rfl, rfl⟩
    · rw [if_neg hid]
      refine wp_ifOk_bind (spec_ack hctx hd h₂.ledger ⟨start, _, msg, r.received, htook, rfl, rfl⟩)
        fun _ s₃ w₃ h₃ => ?_
      obtain ⟨hseq₃, h₃⟩ := h₃
      have hseq : (((calls i).debouncerInput m).took start now msg r).seq = s₃.seq :=
        (if_neg hid).trans (by omega)
      exact ⟨_, h₃.ledger, htook.mono (h₃.grows.logs i m), hseq, rfl, rfl⟩

/-! ### The target -/

omit hctx in
/-- The row of a target, started with the input of the last round. -/
theorem rowOk_target (hd : Distinct calls) (hid : row.id = (calls i).targetId m)
    (hname : row.name = (calls i).target)
    (hparent : row.parentWorkflowId = some ((calls i).collectorId m)) (hdedup : row.dedupId = none)
    (hinput : row.input = r.current ((calls i).debouncerInput m))
    (hhalts : Halts ((calls i).debouncerInput m) (log g ((calls i).collectorId m)) start r) :
    RowOk calls g ((calls i).targetId m) row where
  keyed := hid
  input _ _ h := (hd.collectorId_ne_targetId h.symm).elim
  key _ _ _ h := (hd.collectorId_ne_targetId h.symm).elim
  ended _ _ h := (hd.collectorId_ne_targetId h.symm).elim
  slot k _ hk := by
    rw [hdedup] at hk
    cases hk
  parent j k h := by
    obtain ⟨rfl, rfl⟩ := hd.targetId h
    exact hparent
  child j k h := by
    obtain ⟨rfl, rfl⟩ := hd.collectorId (Option.some.inj (hparent.symm.trans h))
    exact ⟨rfl, hname, start, r, hhalts, hinput⟩

omit hctx in
theorem child_logged (hw : Ledger calls w.store) {child name : String}
    (h : ((w.store.steps.lookup ((calls i).collectorId m, n)).bind fun row =>
      row.childWorkflowId.map fun id => (id, row.name)) = some (child, name)) :
    (w.store.workflows.lookup ((calls i).targetId m)).isSome := by
  obtain ⟨row, hrow, hchild⟩ := bind_eq_some_iff.mp h
  obtain ⟨c, hc, -⟩ := map_eq_some_iff.mp hchild
  obtain ⟨rfl, hthere⟩ := (hw.logs i m n row hrow).child c hc
  exact hthere

/-- The insertion of the target and the start of its execution. -/
theorem spec_spawnChild (hd : Distinct calls) (hw : Ledger calls w.store)
    (hdedup : opts.dedupId = none)
    (hhalts : Halts ((calls i).debouncerInput m) (logOf calls i m w) start r) :
    wp (sharing X calls (some (i, m)))
      (spawnChild ctx.runtime ((calls i).targetId m) (calls i).target
        (r.current ((calls i).debouncerInput m)) opts ctx.workflowId auth)
      (IfOk fun _ _ w' => Later calls w w' ∧
        (w'.store.workflows.lookup ((calls i).targetId m)).isSome) s w := by
  unfold spawnChild
  dsimp only
  split
  · trivial
  refine wp_bind (wp_mono ?_ (spec_insertRun hw fun nowMs created g' hg' =>
    rowOk_target hd rfl rfl (congrArg some hctx) hdedup rfl (hhalts.mono (hg'.logs i m))))
  rintro (e | ⟨canonical, queued, created⟩) s₁ w₁ ⟨h₁, hthere⟩
  · trivial
  · have hthere := hthere _ rfl
    rw [after_ok]
    split
    · intro w₂ hw₂ _ w₃ hr
      have hm₂ := hw₂ h₁.ledger
      obtain rfl : w₃ = w₂ := hr
      exact ⟨.refl hm₂.ledger, h₁.trans ⟨hm₂.ledger, hm₂.grows⟩, hm₂.grows.rows _ hthere⟩
    · exact ⟨h₁, hthere⟩

/-- **The start of the target**: its row is there afterwards. -/
theorem spec_target (hd : Distinct calls) (hw : Ledger calls w.store)
    (hhalts : Halts ((calls i).debouncerInput m) (logOf calls i m w) start r) :
    wp (sharing X calls (some (i, m)))
      (startWorkflow ctx Value (calls i).target (r.current ((calls i).debouncerInput m))
        ((calls i).targetOpts.intoOptions ((calls i).targetId m)))
      (IfOk fun _ _ w' => Later calls w w' ∧
        (w'.store.workflows.lookup ((calls i).targetId m)).isSome) s w := by
  refine wp_nextSeq (wp_shareAsk hw fun w₁ hm₁ res w₂ hr => ?_)
  rw [hctx] at hr
  obtain ⟨_, rfl, rfl⟩ := Provider.handle_provider.mp hr
  refine ⟨.refl hm₁.ledger, fun found hfound h₁ => ?_⟩
  cases found with
  | some child =>
    dsimp only
    split
    · trivial
    · exact ⟨h₁, child_logged hm₁.ledger (Except.ok.inj hfound)⟩
  | none =>
    have hchildId : childIdOf ctx ((calls i).targetOpts.intoOptions ((calls i).targetId m)) s.seq =
        (calls i).targetId m := if_neg (hd.nonempty i _)
    rw [hchildId]
    refine wp_toValue rfl (wp_ifOk_bind (spec_spawnChild hctx hd h₁.ledger rfl
      (hhalts.mono (h₁.grows.logs i m))) fun _ s₃ w₃ h₃ => ?_)
    obtain ⟨h₃, hthere⟩ := h₃
    refine wp_shareAsk h₃.ledger fun w₄ hm₄ res w₅ hr => ?_
    rw [hctx] at hr
    obtain ⟨_, rfl, rfl⟩ := Provider.handle_provider.mp hr
    have hok : ∀ g', Grows calls w₄.store g' → LogOk calls g' i m
        { name := (calls i).target, childWorkflowId := some ((calls i).targetId m) } := by
      refine fun g' hg' => ⟨fun _ => .inl rfl, fun c hc => ?_⟩
      obtain rfl := Option.some.inj hc
      exact ⟨rfl, hg'.rows _ (hm₄.grows.rows _ hthere)⟩
    have hkept := hm₄.ledger.recorded hd (n := s.seq) hok
    exact ⟨hkept, fun _ _ h₅ => ⟨(h₁.trans h₃).trans h₅, h₅.grows.rows _ hthere⟩⟩

/-- **A collector that ends well has started its target.** -/
theorem spec_collect (hd : Distinct calls) [Serde DateTime] (hseq : s.seq = 0)
    (hw : Ledger calls w.store) :
    wp (sharing X calls (some (i, m)))
      (internalDebouncer (provider X) ctx ((calls i).debouncerInput m))
      (IfOk fun _ _ w' => (w'.store.workflows.lookup ((calls i).targetId m)).isSome) s w := by
  refine wp_ifOk_bind (spec_time hctx hd (by decide) hw) fun start s₁ w₁ h₁ => ?_
  obtain ⟨hseq₁, h₁, hstart⟩ := h₁
  rw [hseq] at hseq₁ hstart
  refine wp_ifOk_bind (wp_ifOk_loop (fun st s w => ∃ r, BetweenRounds i m start st s w calls r)
    ⟨_, h₁.ledger, .first hstart, hseq₁.symm, rfl, rfl⟩ fun st s w ⟨_, h⟩ => spec_play hctx hd h)
    fun v s₂ w₂ h₂ => ?_
  obtain ⟨h₂, r, rfl, hhalts⟩ := h₂
  exact wp_ifOk_bind (spec_target hctx hd h₂ hhalts) fun _ _ _ h₃ => h₃.2

omit hctx in
theorem handle_setStatus {status : Status} {output : Option Value} {error : Option String}
    {res : Except Error Unit} (hw : Ledger calls w.store)
    (hr : (provider X).handle
      (.provider (.setWorkflowStatus ((calls i).collectorId m) status output error)) w res w')
    (hd : Distinct calls)
    (hover : status = .success → (w.store.workflows.lookup ((calls i).targetId m)).isSome) :
    Kept calls own w.store w'.store := by
  obtain ⟨_, rfl, rfl⟩ := Provider.handle_provider.mp hr
  dsimp only [provider, Memory.call, setWorkflowStatus]
  split
  · next row hrow =>
      split
      · exact .refl hw
      · refine hw.written fun g' hg' => ((hw.rows _ row hrow).mono hg').applyStatus ?_
        intro j k hid hs
        obtain ⟨rfl, rfl⟩ := hd.collectorId hid
        exact hg'.rows _ (hover hs)
  · exact .refl hw

omit hctx in
/-- A collector is over only after its target is there. -/
theorem spec_conclude (hd : Distinct calls) {caught : Except Error Value}
    (hw : Ledger calls w.store)
    (hover : ∀ v, caught = .ok v → (w.store.workflows.lookup ((calls i).targetId m)).isSome) :
    wp (sharing X calls (some (i, m)))
      (conclude (provider X) ((calls i).collectorId m) (.returned caught))
        (fun _ _ _ => True) s w := by
  cases caught with
  | ok v =>
    refine wp_ask fun w₁ hw₁ r w₂ hr => ⟨handle_setStatus (hw₁ hw).ledger hr hd fun _ => ?_, ?_⟩
    · exact (hw₁ hw).grows.rows _ (hover v rfl)
    · cases r <;> trivial
  | error e =>
    have hsilent : ∀ status output error (r : Except Error Value), status ≠ .success →
        wp (sharing X calls (some (i, m)))
          (ask (.setWorkflowStatus ((calls i).collectorId m) status output error) >>= fun _ =>
            ofExcept r) (fun _ _ _ => True) s w := by
      intro status output error r hne
      refine wp_ask fun w₁ hw₁ r w₂ hr => ⟨handle_setStatus (hw₁ hw).ledger hr hd fun h => ?_, ?_⟩
      · exact (hne h).elim
      · cases r <;> trivial
    cases e with
    | cancelled _ => exact hsilent _ _ _ (.error _) (by decide)
    | _ => exact hsilent _ _ _ (.error _) (by decide)

omit hctx in
/-- **An execution of a collector**, first or repeated, keeps the ledger. -/
theorem spec_runCollector (hd : Distinct calls) [Serde DateTime] {rt : Runtime}
    (hw : Ledger calls w.store) :
    wp (sharing X calls (some (i, m)))
      (runCollector (provider X) rt ((calls i).collectorId m)
        (.object ((calls i).debouncerInput m).fields) auth) (fun _ _ _ => True) s w := by
  have hbody : wp (sharing X calls (some (i, m)))
      (debouncerFn (provider X) ⟨(calls i).collectorId m, auth, rt⟩
        (.object ((calls i).debouncerInput m).fields))
      (IfOk fun _ _ w' => (w'.store.workflows.lookup ((calls i).targetId m)).isSome) {} w := by
    refine wp_bind ?_
    change after _ _ _ ((DebouncerInput.read _).mapError .serde) _ _
    rw [read_debouncerInput]
    exact wp_ifOk_bind (spec_collect rfl hd rfl hw) fun _ _ _ h => h
  refine wp_bind (wp_ofProc (Proc.wp_bind (Proc.wp_mono ?_ (wp_ledger hw hbody))))
  rintro ⟨r, s'⟩ w' ⟨hover, hledger⟩
  exact spec_conclude hd hledger fun v hv => by subst hv; exact hover

end Collector

/-! ## A call -/

/-- **A call has been accepted under an id**: there is the collector whose target has that id, for
the key of the call, and it is the call's own or has taken a message of the call. -/
def Accepted (calls : ι → Call) (g : Inner) (i : ι) (id : String) : Prop :=
  ∃ j m, id = (calls j).targetId m ∧ (g.workflows.lookup ((calls j).collectorId m)).isSome ∧
    (calls j).key = (calls i).key ∧ (j = i ∨ ∃ n, Took calls g j m ((calls i).messageId n))

theorem Accepted.mono {i : ι} {id : String} (hg : Grows calls g g') (h : Accepted calls g i id) :
    Accepted calls g' i id := by
  obtain ⟨j, m, hid, hthere, hkey, htook⟩ := h
  exact ⟨j, m, hid, hg.rows _ hthere, hkey, htook.imp_right fun ⟨n, hn⟩ => ⟨n, hn.mono hg⟩⟩

section Call

variable {i : ι} {m : Nat}

theorem rowOk_collector (hd : Distinct calls) (hid : row.id = (calls i).collectorId m)
    (hinput : row.input = .object ((calls i).debouncerInput m).fields)
    (hdedup : row.dedupId = some (calls i).key) (hstatus : row.status = .enqueued)
    (hparent : row.parentWorkflowId = none) : RowOk calls g ((calls i).collectorId m) row where
  keyed := hid
  input j k h := by
    obtain ⟨rfl, rfl⟩ := hd.collectorId h
    exact hinput
  key j k key h hkey := by
    obtain ⟨rfl, rfl⟩ := hd.collectorId h
    exact Option.some.inj (hkey.symm.trans hdedup)
  ended _ _ _ h := (nomatch hstatus.symm.trans h)
  slot _ _ _ := ⟨i, m, rfl⟩
  parent _ _ h := (hd.collectorId_ne_targetId h).elim
  child _ _ h := by
    rw [hparent] at h
    cases h

theorem spec_start {E : Engine} {uuid : String} {I : Type} [Serde I] {input : I} {json : Value}
    (hjson : Serde.toValue input = .ok json) (hpolicy : opts.dedupPolicy = .reject)
    (hw : Ledger calls w.store)
    (hrow : ∀ nowMs created auth g', RowOk calls g' (startId uuid opts)
      (newRun E.runtime nowMs created (startId uuid opts) name json opts none auth)) :
    wp (sharing X calls none) (start E uuid I name input opts)
      (IfOk fun _ _ w' => (w'.store.workflows.lookup (startId uuid opts)).isSome) s w := by
  have hinsert : ∀ auth s (w : World Inner), Ledger calls w.store → wp (sharing X calls none)
      (insertOrExisting E (startId uuid opts) name json opts auth)
      (IfOk fun x _ w' => x.elim (fun _ => Ledger calls w'.store) fun _ =>
        Ledger calls w'.store ∧ (w'.store.workflows.lookup (startId uuid opts)).isSome) s w := by
    intro auth s w hw
    refine wp_bind (wp_attempt (wp_mono ?_ (spec_insertRun hw fun _ _ g' _ => hrow _ _ auth g')))
    rintro (e | ⟨canonical, queued, created⟩) s₁ w₁ ⟨h₁, hthere⟩
    · rw [after_ok]
      dsimp only
      rw [if_neg (by rw [hpolicy]; exact fun h => (nomatch h.1))]
      trivial
    · exact ⟨h₁.ledger, hthere _ rfl⟩
  refine wp_toValue hjson ?_
  rw [if_neg (fun h => h.1 hpolicy)]
  dsimp only
  split
  · trivial
  refine wp_ifOk_bind (wp_ifOk_loop (fun _ _ w => Ledger calls w.store) hw
    fun _ s w h => hinsert _ s w h) fun out s₁ w₁ h₁ => ?_
  rcases out with existing | ⟨canonical, queued⟩
  · exact h₁.2
  · dsimp only
    split
    · exact h₁.2
    · refine wp_look h₁.1 (fun _ _ _ hr => hr) fun _ w₂ hm₂ _ => ?_
      exact hm₂.grows.rows _ h₁.2

theorem spec_insertOrHolder {queue : String} (hpolicy : opts.dedupPolicy = .reject)
    (hw : Ledger calls w.store) (hrow : ∀ g', RowOk calls g' row.id row) :
    wp (sharing X calls none) (insertOrHolder row queue opts)
      (IfOk fun x _ w' => x.elim (fun _ => Ledger calls w'.store) fun _ =>
        (w'.store.workflows.lookup row.id).isSome) s w := by
  refine wp_bind (wp_attempt fun w₁ hw₁ r w₂ hr => ?_)
  obtain ⟨hkept, hthere⟩ : Kept calls none w₁.store w₂.store ∧ _ :=
    handle_insert (hw₁ hw).ledger hr fun g' _ => hrow g'
  refine ⟨hkept, ?_⟩
  cases r with
  | ok a => exact hthere a rfl
  | error e =>
    change wp _ (ite _ _ _) _ _ _
    rw [if_neg (by rw [hpolicy]; exact fun h => (nomatch h.1))]
    trivial

/-- **A collector is enqueued**: its row is there if it succeeds. -/
theorem spec_enqueue (hd : Distinct calls) (hw : Ledger calls w.store) {caller : Caller} :
    wp (sharing X calls none)
      (enqueueDebouncer ((calls i).collectorId m) ((calls i).debouncerInput m) (calls i).key caller)
      (IfOk fun _ _ w' => (w'.store.workflows.lookup ((calls i).collectorId m)).isSome) s w := by
  cases caller with
  | engine E =>
    exact wp_ifOk_bind (spec_start rfl rfl hw fun _ _ _ _ =>
      rowOk_collector hd rfl rfl rfl rfl rfl) fun _ _ _ h => h
  | client appVersion =>
    refine wp_ifOk_bind (wp_look hw (fun _ _ _ hr => hr.2) fun now w₁ _ h₁ => ?_)
      fun _ _ _ h => h
    refine wp_toValue rfl (wp_look h₁.ledger (fun _ _ _ hr => hr.2) fun created w₂ _ h₂ => ?_)
    refine wp_ifOk_loop (fun _ _ w => Ledger calls w.store) h₂.ledger fun _ s w hw => ?_
    exact spec_insertOrHolder rfl hw fun _ => rowOk_collector hd rfl rfl rfl rfl rfl

theorem holder_of_key (hw : Ledger calls g) {key existing : String}
    (h : (g.workflows.values.find? fun row =>
      row.queueName = some INTERNAL_QUEUE && row.dedupId = some key).map (·.id) = some existing) :
    ∃ j k, existing = (calls j).collectorId k ∧ (calls j).key = key := by
  obtain ⟨row, hfind, rfl⟩ := map_eq_some_iff.mp h
  have hheld := List.find?_some hfind
  rw [Bool.and_eq_true, decide_eq_true_iff, decide_eq_true_iff] at hheld
  obtain ⟨id, hrow⟩ := AList.mem_values.mp (List.mem_of_find?_eq_some hfind)
  have hok := hw.rows id row hrow
  obtain ⟨j, k, rfl⟩ := hok.slot key hheld.1 hheld.2
  exact ⟨j, k, hok.keyed, (hok.key j k key rfl hheld.2).symm⟩

theorem spec_send (hd : Distinct calls) {j : ι} {k : Nat} (hkey : (calls j).key = (calls i).key)
    (hw : Ledger calls w.store) :
    wp (sharing X calls none) (sendFrom DebounceMessage ((calls j).collectorId k)
      ((calls i).message m) DEBOUNCER_TOPIC) (IfOk fun _ _ w' => Later calls w w') s w := by
  refine wp_toValue rfl fun w₁ hw₁ r w₂ hr => ?_
  have hm₁ := hw₁ hw
  obtain ⟨uuid, -, rfl⟩ := Provider.handle_provider.mp hr
  have hkept : Kept calls none w₁.store (insertNotification w₁.clock uuid ((calls j).collectorId k)
      DEBOUNCER_TOPIC (.object ((calls i).message m).fields) none w₁.store).2 := by
    unfold insertNotification
    split
    · exact .refl hm₁.ledger
    · refine hm₁.ledger.mailed fun j' k' hdest => ?_
      obtain ⟨rfl, rfl⟩ := hd.collectorId hdest
      exact ⟨i, m, hkey.symm, rfl⟩
  refine ⟨hkept, ?_⟩
  cases r with
  | error e => trivial
  | ok _ => exact ⟨hkept.ledger, hm₁.grows.trans hkept.grows⟩

/-- A call that sees an acknowledgement knows that the message was taken. -/
theorem spec_getEvent {j : ι} {k : Nat} {key : String} (hw : Ledger calls w.store) :
    wp (sharing X calls none) (getEventFrom Bool ((calls j).collectorId k) key timeout)
      (IfOk fun r _ w' => Later calls w w' ∧ (r.isSome → Took calls w'.store j k key)) s w := by
  refine wp_look hw (fun _ _ _ hr => hr.2) fun now w₁ _ h₁ => ?_
  refine wp_ifOk_loop (fun _ _ w' => Later calls w w') h₁ fun _ s w₂ h₂ => ?_
  refine wp_shareAsk h₂.ledger fun w₃ hm₃ r w₄ hr => ?_
  obtain ⟨rfl, rfl⟩ := handle_getEventValue hr
  refine ⟨.refl hm₃.ledger, fun found hfound h₄ => ?_⟩
  cases found with
  | some v =>
    refine wp_bind ?_
    cases hread : (Serde.fromValue v : Except String Bool) with
    | error e =>
      change after _ _ _ ((Serde.fromValue v : Except String Bool).mapError Error.serde) _ _
      rw [hread]
      trivial
    | ok b =>
      change after _ _ _ ((Serde.fromValue v : Except String Bool).mapError Error.serde) _ _
      rw [hread]
      exact ⟨h₂.trans h₄, fun _ => hm₃.ledger.acks j k key v (Except.ok.inj hfound)⟩
  | none =>
    refine wp_look h₄.ledger (fun _ _ _ hr => hr.2) fun _ w₅ _ h₅ => ?_
    split
    · exact ⟨(h₂.trans h₄).trans h₅, fun h => (nomatch h)⟩
    · exact wp_look h₅.ledger (fun _ _ _ hr => hr) fun _ w₆ _ h₆ =>
        ((h₂.trans h₄).trans h₅).trans h₆

/-- **A push**: the call goes on, or the collector for its key has taken its message. -/
theorem spec_push (hd : Distinct calls) (hw : Ledger calls w.store) :
    wp (sharing X calls none) ((calls i).push m)
      (IfOk fun x _ w' => x.elim (fun _ => Ledger calls w'.store)
        (Accepted calls w'.store i)) s w := by
  refine wp_shareAsk hw fun w₁ hm₁ r w₂ hr => ?_
  obtain ⟨_, rfl, rfl⟩ := Provider.handle_provider.mp hr
  refine ⟨.refl hm₁.ledger, fun found hfound h₁ => ?_⟩
  cases found with
  | none => exact h₁.ledger
  | some existing =>
    obtain ⟨j, k, rfl, hkey⟩ := holder_of_key hm₁.ledger (Except.ok.inj hfound)
    refine wp_shareAsk h₁.ledger fun w₃ hm₃ r w₄ hr => ?_
    obtain ⟨rfl, rfl⟩ := handle_getWorkflowStatus hr
    refine ⟨.refl hm₃.ledger, fun status hstatus h₃ => ?_⟩
    cases status with
    | none => exact h₃.ledger
    | some row =>
      have hrow := Except.ok.inj hstatus
      refine wp_bind ?_
      change after _ _ _ ((DebouncerInput.read row.input).mapError .serde) _ _
      rw [(hm₃.ledger.rows _ row hrow).input j k rfl, read_debouncerInput]
      refine wp_ifOk_bind (spec_send hd hkey h₃.ledger) fun _ s₅ w₅ h₅ => ?_
      refine wp_ifOk_bind (spec_getEvent h₅.ledger) fun ack s₆ w₆ h₆ => ?_
      obtain ⟨h₆, htook⟩ := h₆
      cases ack with
      | none => exact h₆.ledger
      | some b =>
        refine ⟨j, k, rfl, (h₅.trans h₆).grows.rows _ ?_, hkey, .inr ⟨m, htook rfl⟩⟩
        rw [hrow]
        rfl

/-- **A call that returns an id has been accepted under it.** -/
theorem spec_runDebounce (hd : Distinct calls) (hw : Ledger calls w.store) :
    wp (sharing X calls none) (calls i).runDebounce
      (IfOk fun id _ w' => Accepted calls w'.store i id) s w := by
  refine wp_ifOk_loop (fun _ _ w => Ledger calls w.store) hw fun n s w hw => ?_
  refine wp_bind (wp_attempt (wp_mono ?_ (wp_ledger hw (spec_enqueue hd hw))))
  rintro (e | _) s₁ w₁ ⟨hthere, h₁⟩
  · rw [after_ok]
    dsimp only
    split
    · exact spec_push hd h₁
    · trivial
  · exact ⟨i, n, rfl, hthere, rfl, .inl rfl⟩

end Call

end Durare.Debounce
