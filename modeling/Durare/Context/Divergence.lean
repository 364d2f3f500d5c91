import Durare.Context.Journal

/-!
# Context/Divergence — an operation that finds another operation's row

A replay is divergent when an operation comes to a sequence number where another operation is
recorded.  It is detected if the operation returns `UnexpectedStep` and does nothing else.

Each operation looks for its row in its own way, and not every way sees every row.  The child lookup
of `startWorkflow` sees only rows with a child id; over SQLite the step lookup sees only rows with
an output or an error, so neither child rows nor patch markers; and the in-memory backend has no
transactions at all.  `Backend.Sees` says which rows an operation sees: those are the divergences it
detects, and no others.
-/

namespace Durare

open Option

open Verb

/-! ## Detection -/

/-- Another execution is started. -/
def Eff.Spawns : Eff → Prop
  | .spawn _ _ _ _ _ => True
  | _ => False

/-- A statement is answered with a database error. -/
def Eff.Fails : (e : Eff) → Answer e → Prop
  | .sql _, r => ∃ e, r = .error (.db e)
  | _, _ => False

section

variable {P : Provider} (J : Journal P) (ctx : DurableContext)

/-- An operation that takes a sequence number and checks what is recorded there. -/
def Op.Checked : Op → Prop
  | @Op.select _ _ branches => branches ≠ 0
  | .patch _ => False
  | _ => True

/-- The row at `n` stays as it is. -/
def SameRow (n : Int) (w w' : World P.State) : Prop :=
  J.row w'.store ctx.workflowId n = J.row w.store ctx.workflowId n

/-- The operation detects the row of the operation `recorded` at its sequence number. -/
structure Detects [Serde DateTime] (o : Op) (s : CtxState) (w : World P.State) (recorded : String) :
    Prop where
  /-- it returns -/
  returns : ∃ es r w', Proc.Runs P.handle (SameRow J ctx s.seq) (o.run P ctx s) w es r w' ∧
    ∀ ev ∈ es, ¬ev.call.Fails ev.answer
  /-- whenever it does, it returns `UnexpectedStep`, and it ran no closure, started no workflow and
  changed nothing -/
  only : ∀ es r w', Proc.Runs P.handle (SameRow J ctx s.seq) (o.run P ctx s) w es r w' →
    (∀ ev ∈ es, ¬ev.call.Fails ev.answer) →
      r.1 = .error (.unexpectedStep ctx.workflowId s.seq o.name recorded) ∧
      ∀ ev ∈ es, ¬ev.call.RunsClosure ∧ ¬ev.call.Spawns ∧ ev.after.store = ev.before.store

/-- Calls of an operation that detects a divergence: they only look. -/
def looking (n : Int) : Proc.Judge Eff Answer (World P.State) where
  handle e w r w' := P.handle e w r w' ∧ ¬e.Fails r
  rely := SameRow J ctx n
  guar e w _ w' := ¬e.RunsClosure ∧ ¬e.Spawns ∧ w'.store = w.store

/-- Calls of an operation that has not run a closure or started a workflow. -/
def blind (n : Int) : Proc.Judge Eff Answer (World P.State) where
  handle e w r w' := P.handle e w r w' ∧ ¬e.Fails r ∧ ¬e.RunsClosure ∧ ¬e.Spawns
  rely := SameRow J ctx n
  guar _ _ _ _ := True

/-- The result is not an `UnexpectedStep` at `n`. -/
def Undetected {α : Type} (n : Int) (r : Except Error α) : Prop :=
  ∀ expected recorded, r ≠ .error (.unexpectedStep ctx.workflowId n expected recorded)

variable {J : Journal P} {ctx : DurableContext} {o : Op} {s : CtxState} {w : World P.State}
  {recorded : String}

theorem SameRow.refl {n : Int} (w : World P.State) : SameRow J ctx n w w := rfl

theorem SameRow.trans {n : Int} {a b c : World P.State} (h : SameRow J ctx n a b)
    (h' : SameRow J ctx n b c) : SameRow J ctx n a c := Eq.trans h' h

variable [Serde DateTime]

/-- A run of calls that only look, and every other run is like it. -/
theorem Detects.of_wp
    (hreturns : ∃ es r w', Proc.Runs P.handle (SameRow J ctx s.seq) (o.run P ctx s) w es r w' ∧
      ∀ ev ∈ es, ¬ev.call.Fails ev.answer)
    (h : wp (looking J ctx s.seq) (o.run P ctx)
      (fun r _ _ => r = .error (.unexpectedStep ctx.workflowId s.seq o.name recorded)) s w) :
    Detects J ctx o s w recorded where
  returns := hreturns
  only es r w' hrun hok := by
    have hrun' : Proc.Runs (looking J ctx s.seq).handle (looking J ctx s.seq).rely (o.run P ctx s) w
        es r w' := hrun.mono (fun _ _ h => h) fun ev hev hr => ⟨hr, hok ev hev⟩
    obtain ⟨hguar, w₀, -, hr⟩ := Proc.wp_runs SameRow.refl SameRow.trans hrun' ⟨w, .refl w, h⟩
    exact ⟨hr, hguar⟩

/-- An operation that cannot come to `UnexpectedStep` without running a closure or starting a
workflow does not detect. -/
theorem Detects.false_of_wp
    (h : wp (blind J ctx s.seq) (o.run P ctx) (fun r _ _ => Undetected ctx s.seq r) s w)
    (hd : Detects J ctx o s w recorded) : False := by
  obtain ⟨es, r, w', hrun, hok⟩ := hd.returns
  obtain ⟨hr, hquiet⟩ := hd.only es r w' hrun hok
  have hrun' : Proc.Runs (blind J ctx s.seq).handle (blind J ctx s.seq).rely (o.run P ctx s) w es r
      w' := hrun.mono (fun _ _ h => h) fun ev hev h =>
    ⟨h, hok ev hev, (hquiet ev hev).1, (hquiet ev hev).2.1⟩
  obtain ⟨-, w₀, -, hnot⟩ := Proc.wp_runs SameRow.refl SameRow.trans hrun' ⟨w, .refl w, h⟩
  exact hnot _ _ hr

end

/-! ## Errors the backends answer with -/

/-- An error of the result is not an `UnexpectedStep`. -/
def Plain {α : Type} (r : Except Error α) : Prop := ∀ e, r = .error e → e.code ≠ .unexpectedStep

variable {T : Type} {ctx : DurableContext}

section

variable {α β : Type}

theorem plain_ok (a : α) : Plain (.ok a : Except Error α) := fun _ h => by cases h

theorem plain_error {e : Error} (h : e.code ≠ .unexpectedStep) :
    Plain (.error e : Except Error α) := by
  rintro _ ⟨rfl⟩
  exact h

variable {r : Except Error α}

theorem Plain.map (h : Plain r) (f : α → β) : Plain (r.map f) := by
  cases r with
  | ok a => exact plain_ok _
  | error e => exact plain_error (h e rfl)

theorem Plain.undetected {n : Int} (h : Plain r) : Undetected ctx n r := by
  rintro expected recorded rfl
  exact h _ rfl rfl

theorem plain_serde (r : Except String T) : Plain (r.mapError Error.serde) := by
  cases r with
  | ok a => exact plain_ok _
  | error e => exact plain_error nofun

theorem plain_outcomeValue [Serde T] (out : StepOutcome) : Plain (outcomeValue T out) := by
  cases out with
  | output v => exact plain_serde _
  | failure message info =>
    cases info with
    | none => exact plain_error nofun
    | some pe => exact plain_error nofun

end

/-- A serializer of the application's own does not fail with the error of a divergent replay. -/
def Serializer.Honest : Serializer → Prop
  | .custom _ encode decode => (∀ v, Plain (encode v)) ∧ ∀ text, Plain (decode text)
  | _ => True

section

variable {X : TextCodec} {s : Serializer}

theorem plain_encode (hs : s.Honest) (v : Value) : Plain (s.encode X v) := by
  cases s with
  | json => exact plain_ok _
  | portable => exact plain_ok _
  | custom => exact hs.1 v

theorem plain_decode (hs : s.Honest) (format : Option String) (text : String) :
    Plain (decode X s format text) := by
  have hbuiltin : ∀ fmt, Plain (decode.decodeBuiltin X text fmt) := by
    intro fmt
    unfold decode.decodeBuiltin
    split_ifs
    · exact plain_ok _
    · split
      · exact plain_error nofun
      · exact plain_serde _
    · exact plain_error nofun
  unfold decode
  dsimp only
  split_ifs
  · exact plain_ok _
  · exact plain_serde _
  · split
    · split_ifs
      · exact hs.2 text
      · exact hbuiltin _
    · exact hbuiltin _

theorem plain_encodeInput (hs : s.Honest) (v : Value) : Plain (encodeInput X s v) := by
  cases s with
  | json => exact plain_ok _
  | portable => exact plain_ok _
  | custom => exact hs.1 v

theorem plain_stepOutcomeFrom (hs : s.Honest) (row : OperationRow) :
    Plain (stepOutcomeFrom X s row) := by
  unfold stepOutcomeFrom
  split
  · exact plain_ok _
  · exact (plain_decode hs _ _).map _
  · exact plain_ok _

end

namespace Memory

theorem plain_call {c : ProviderCall} (hc : c.Durable) (now : DateTime) (uuid : String)
    (g : Inner) : Plain (call c now uuid g).1 := by
  cases c with
  | insertWorkflowStatus status =>
    change Plain (insertWorkflowStatus status g).1
    obtain ⟨_, _, -, -, -, heq⟩ | ⟨-, heq⟩ := insertWorkflowStatus_cases status g
    · rw [heq]
      exact plain_error (by simp [Error.code])
    · rw [heq, insertWorkflowStatus.insert]
      split
      · exact plain_ok _
      · exact plain_ok _
  | insertNotification dest topic message key =>
    change Plain (insertNotification now uuid dest topic message key g).1
    obtain ⟨-, heq⟩ | ⟨-, -, heq⟩ | ⟨-, -, heq⟩ :=
      insertNotification_cases now uuid dest topic message key g
    all_goals rw [heq]
    · exact plain_error (by simp [Error.code])
    · exact plain_ok _
    · exact plain_ok _
  | consumeNotification id topic seq name =>
    change Plain (consumeNotification id topic seq name g).1
    unfold consumeNotification
    split
    · exact plain_ok _
    · exact plain_ok _
  | writeStream id key value functionId =>
    change Plain (writeStream id key value g).1
    unfold writeStream
    dsimp only
    split_ifs
    · exact plain_error (by simp [Error.code])
    · exact plain_ok _
  | recordStepResult | recordChildWorkflow | recordPatch | getWorkflowStatus | getStepResult
  | upsertEvent | getEventValue | checkChildWorkflow | getStepName => exact plain_ok _
  | _ => exact hc.elim

end Memory

namespace Sqlite

variable {X : TextCodec} {s : Serializer}

theorem plain_insertOperation (id : String) (seq : Int) (row : OperationRow) (db : Db) :
    Plain (insertOperation id seq row db) := by
  unfold insertOperation
  split_ifs
  · exact plain_ok _
  · exact plain_error (by decide)
  · exact plain_ok _

theorem plain_insertOnly (id : String) (seq : Int) (row : OperationRow) (db : Db) :
    Plain (insertOnly id seq row db).1 := by
  unfold insertOnly
  split
  · next e h => exact plain_error (plain_insertOperation id seq row db e h)
  · exact plain_ok _

theorem plain_call (hs : s.Honest) {c : ProviderCall} (hc : c.Durable) (now : DateTime)
    (uuid : String) (db : Db) : Plain (call X s c now uuid db).1 := by
  cases c with
  | insertWorkflowStatus status =>
    change Plain (insertWorkflowStatus X s now status db).1
    unfold insertWorkflowStatus
    split
    · next e h => exact plain_error (plain_encodeInput hs _ e h)
    · split
      · exact plain_ok _
      · dsimp only
        split_ifs
        · exact plain_error nofun
        · exact plain_ok _
  | insertNotification dest topic message key =>
    change Plain (insertNotification X s now uuid dest topic message key db).1
    unfold insertNotification
    dsimp only
    split
    · next e h => exact plain_error (plain_encode hs _ e h)
    · split_ifs
      · exact plain_ok _
      · exact plain_error nofun
      · exact plain_ok _
  | consumeNotification id topic seq name =>
    change Plain (consumeNotification X s id topic seq name db).1
    unfold consumeNotification
    split
    · exact plain_ok _
    · dsimp only
      split
      · next e h => exact plain_error (plain_insertOperation _ _ _ _ e h)
      · exact (plain_decode hs _ _).map _
  | recordStepResult id seq name value error started =>
    change Plain (recordStepResult X s now id seq name value error started db).1
    have houtput : Plain (if error.isSome then .ok none else (s.encode X value).map some) := by
      split_ifs
      · exact plain_ok _
      · exact (plain_encode hs _).map _
    unfold recordStepResult
    dsimp only
    split
    · next e h => exact plain_error (houtput e h)
    · split
      · next e h => exact plain_error (plain_insertOperation _ _ _ _ e h)
      · exact (plain_stepOutcomeFrom hs _).map _
  | writeStream id key value functionId =>
    change Plain (writeStream X s id key value functionId db).1
    unfold writeStream
    dsimp only
    split
    · next e h =>
        cases value with
        | some v => exact plain_error ((plain_encode hs v).map _ e h)
        | none => cases h
    · split_ifs
      · exact plain_error nofun
      · exact plain_error nofun
      · exact plain_ok _
  | upsertEvent id key value =>
    change Plain (upsertEvent X s id key value db).1
    unfold upsertEvent
    split
    · next e h => exact plain_error (plain_encode hs _ e h)
    · split_ifs
      · exact plain_error (by decide)
      · exact plain_ok _
  | getStepResult id seq =>
    change Plain (getStepResult X s id seq db).1
    unfold getStepResult
    split
    · exact (plain_stepOutcomeFrom hs _).map _
    · exact plain_ok _
  | getEventValue id key =>
    change Plain (getEventValue X s id key db).1
    unfold getEventValue
    split
    · exact (plain_decode hs _ _).map _
    · exact plain_ok _
  | recordChildWorkflow id seq name child => exact plain_insertOnly _ _ _ _
  | recordPatch id seq name => exact plain_insertOnly _ _ _ _
  | getWorkflowStatus | checkChildWorkflow | getStepName => exact plain_ok _
  | _ => exact hc.elim

end Sqlite

/-- No call of a durable operation is answered with an `UnexpectedStep`. -/
def Provider.Honest (P : Provider) : Prop :=
  ∀ {c : ProviderCall} {w w' : World P.State} {r : Except Error c.Result}, c.Durable →
    P.handle (.provider c) w r w' → Plain r

theorem Memory.provider_honest (X : TextCodec) : (Memory.provider X).Honest := by
  intro c w w' r hc h
  obtain ⟨uuid, rfl, -⟩ := Provider.handle_provider.mp h
  exact Memory.plain_call hc w.clock uuid w.store

variable {X : TextCodec}

theorem Sqlite.provider_honest {s : Serializer} (hs : s.Honest) : (Sqlite.provider X s).Honest := by
  intro c w w' r hc h
  obtain ⟨uuid, rfl, -⟩ := Provider.handle_provider.mp h
  exact Sqlite.plain_call hs hc w.clock uuid w.store

/-! ## Methods that do not detect -/

/-- The method does not come to an `UnexpectedStep` at `n` on its own. -/
def Blind {P : Provider} (J : Journal P) (ctx : DurableContext) (n : Int) {α : Type} (x : Verb α) :
    Prop :=
  ∀ s w, wp (blind J ctx n) x (fun r _ _ => Undetected ctx n r) s w

section

variable {P : Provider} {J : Journal P} {ctx : DurableContext} {n m : Int} {α β σ T : Type}
  [Serde T]

theorem blind_bind {x : Verb α} {f : α → Verb β} (hx : Blind J ctx n x)
    (hf : ∀ a, Blind J ctx n (f a)) : Blind J ctx n (x >>= f) := by
  intro s w
  refine wp_bind (wp_mono (fun r s' w' hr => ?_) (hx s w))
  cases r with
  | ok a => exact hf a s' w'
  | error e =>
    rintro expected recorded ⟨rfl⟩
    exact hr _ _ rfl

theorem blind_ofExcept {r : Except Error α} (h : Plain r) : Blind J ctx n (ofExcept r) :=
  fun _ _ => h.undetected

theorem blind_pure {a : α} : Blind J ctx n (pure a) := blind_ofExcept (plain_ok a)

theorem blind_fail {e : Error} (h : e.code ≠ .unexpectedStep) : Blind J ctx n (fail e : Verb α) :=
  blind_ofExcept (plain_error h)

theorem blind_toValue {v : T} : Blind J ctx n (toValue v) := blind_ofExcept (plain_serde _)

theorem blind_fromValue {v : Value} : Blind J ctx n (fromValue T v) :=
  blind_ofExcept (plain_serde _)

theorem blind_ask (hP : P.Honest) {c : ProviderCall} (hc : c.Durable) : Blind J ctx n (ask c) :=
  fun _ _ _ _ _ _ hr => ⟨trivial, (hP hc hr.1).undetected⟩

theorem blind_perform {e : Eff} : Blind J ctx n (perform e) :=
  fun _ _ _ _ _ _ _ => ⟨trivial, fun _ _ h => by cases h⟩

variable {body : σ → Verb (σ ⊕ β)}

theorem blind_loop (h : ∀ t, Blind J ctx n (body t)) (t : σ) : Blind J ctx n (loop body t) := by
  refine fun s w => wp_loop (fun _ _ _ => True) trivial fun t s w _ => wp_mono ?_ (h t s w)
  rintro (e | t' | b) s' w' hr
  · rintro expected recorded ⟨rfl⟩
    exact hr _ _ rfl
  · trivial
  · exact (plain_ok b).undetected

/-- A method that cannot return before it has run a closure. -/
def Stuck (J : Journal P) (ctx : DurableContext) (n : Int) (x : Verb α) : Prop :=
  ∀ s w, wp (blind J ctx n) x (fun _ _ _ => False) s w

theorem stuck_closure {e : Eff} (he : e.RunsClosure) {f : Answer e → Verb β} :
    Stuck J ctx n (perform e >>= f) :=
  fun _ _ => wp_perform fun _ _ _ _ hr => absurd he hr.2.2.1

theorem stuck_loop (h : ∀ t, Stuck J ctx n (body t)) (t : σ) : Stuck J ctx n (loop body t) :=
  fun _ _ => wp_loop (fun _ _ _ => True) trivial fun t s w _ =>
    wp_mono (fun _ _ _ hr => hr.elim) (h t s w)

/-- What comes after a closure does not matter. -/
theorem Stuck.blind {x : Verb α} (h : Stuck J ctx n x) (f : α → Verb β) :
    Blind J ctx n (x >>= f) :=
  fun s w => wp_bind (wp_mono (fun _ _ _ hr => hr.elim) (h s w))

omit [Serde T] in
theorem stuck_runStepCatching {seq : Int} {name : String} :
    Stuck J ctx n (runStepCatching T seq name) := stuck_closure (e := .closure T seq) trivial

omit [Serde T] in
theorem stuck_runWithRetries {seq : Int} {opts : StepOptions} :
    Stuck J ctx n (runWithRetries T seq opts) := by
  refine stuck_loop (fun _ s w => ?_) _
  exact wp_bind (wp_mono (fun _ _ _ hr => hr.elim) (stuck_runStepCatching s w))

end

/-! ## Methods that begin with a lookup -/

/-- A call that looks for a row, and the name of the operation it may find recorded. -/
structure Lookup where
  call : ProviderCall
  name : call.Result → Option String

/-- The lookup of a step. -/
def stepLookup (ctx : DurableContext) (n : Int) : Lookup :=
  ⟨.getStepResult ctx.workflowId n, Option.map RecordedStep.name⟩

/-- The lookup of a child. -/
def childLookup (ctx : DurableContext) (n : Int) : Lookup :=
  ⟨.checkChildWorkflow ctx.workflowId n, Option.map Prod.snd⟩

/-- The lookup only looks, and finds this name. -/
def Lookup.Finds {P : Provider} (q : Lookup) (w : World P.State) (found : Option String) : Prop :=
  ∀ r w', P.handle (.provider q.call) w r w' → w' = w ∧ ∃ a, r = .ok a ∧ q.name a = found

/-- The method begins with a lookup: it refuses the row of another operation, and goes on blind
where it finds none. -/
def LooksUp {P : Provider} (J : Journal P) (ctx : DurableContext) (n : Int) (q : Lookup)
    (name : String) {α : Type} (x : Verb α) : Prop :=
  ∃ f, x = ask q.call >>= f ∧ (∀ a recorded, q.name a = some recorded → recorded ≠ name →
      f a = fail (.unexpectedStep ctx.workflowId n name recorded)) ∧
    ∀ a, q.name a = none → Blind J ctx n (f a)

variable {id : String} {s : CtxState} {seq : Int}

section

variable {P : Provider} {J : Journal P} {ctx : DurableContext} {n m : Int} {name : String}
  {q : Lookup} {α β σ T : Type} [Serde T]

theorem LooksUp.bind {x : Verb α} {g : α → Verb β} (h : LooksUp J ctx n q name x)
    (hg : ∀ a, Blind J ctx n (g a)) : LooksUp J ctx n q name (x >>= g) := by
  obtain ⟨f, rfl, hother, hnone⟩ := h
  refine ⟨fun found => f found >>= g, bind_assoc _ _ _, fun a recorded ha hne => ?_,
    fun a ha => blind_bind (hnone a ha) hg⟩
  dsimp only
  rw [hother a recorded ha hne]
  rfl

theorem looksUp_step {f : Option RecordedStep → Verb α}
    (hother : ∀ rec, rec.name ≠ name →
      f (some rec) = fail (.unexpectedStep ctx.workflowId n name rec.name))
    (hnone : Blind J ctx n (f none)) :
    LooksUp J ctx n (stepLookup ctx n) name (ask (.getStepResult ctx.workflowId n) >>= f) := by
  refine ⟨f, rfl, fun found recorded hfound hne => ?_, fun found hfound => ?_⟩
  · obtain ⟨rec, rfl, rfl⟩ := map_eq_some_iff.mp hfound
    exact hother rec hne
  · obtain rfl := map_eq_none_iff.mp hfound
    exact hnone

theorem looksUp_replayOrGuard (hP : P.Honest) :
    LooksUp J ctx n (stepLookup ctx n) name (replayOrGuard ctx T n name) := by
  refine looksUp_step (fun _ hrec => if_pos hrec) ?_
  refine blind_bind (blind_ask hP trivial) fun found => ?_
  cases found with
  | none => exact blind_pure
  | some status =>
    dsimp only
    split
    · exact blind_fail nofun
    · exact blind_pure

theorem blind_record (hP : P.Honest) {value : Value} {started : Option Int} :
    Blind J ctx n (ask (.recordStepResult ctx.workflowId seq name value none started) >>= fun out =>
      ofExcept (outcomeValue T out)) :=
  blind_bind (blind_ask hP trivial) fun out => blind_ofExcept (plain_outcomeValue out)

theorem looksUp_durableWakeAt [Serde DateTime] (hP : P.Honest) {dur : Duration} :
    LooksUp J ctx n (stepLookup ctx n) "DBOS.sleep" (durableWakeAt ctx n dur) :=
  looksUp_step (fun _ hrec => if_pos hrec) (blind_bind blind_perform fun _ =>
    blind_bind blind_toValue fun _ => blind_record hP)

theorem blind_durableWakeAt [Serde DateTime] (hP : P.Honest) (hm : m ≠ n) {dur : Duration} :
    Blind J ctx n (durableWakeAt ctx m dur) := by
  refine blind_bind (blind_ask hP trivial) fun found => ?_
  cases found with
  | none =>
    exact blind_bind blind_perform fun _ => blind_bind blind_toValue fun _ => blind_record hP
  | some rec =>
    dsimp only
    split
    · rintro s w expected recorded h
      cases h
      exact hm rfl
    · exact blind_ofExcept (plain_outcomeValue _)

theorem looksUp_nextSeq {y : Int → Verb α} (h : LooksUp J ctx s.seq q name (y s.seq)) :
    ∃ x s', (nextSeq >>= y) s = x s' ∧ LooksUp J ctx s.seq q name x :=
  ⟨y s.seq, _, rfl, h⟩

theorem looksUp_nextSeqs {y : Int → Int → Verb α}
    (h : LooksUp J ctx s.seq q name (y s.seq (s.seq + 1))) :
    ∃ x s', (nextSeq >>= fun seq => nextSeq >>= fun deadlineSeq => y seq deadlineSeq) s = x s' ∧
      LooksUp J ctx s.seq q name x :=
  ⟨y s.seq (s.seq + 1), _, rfl, h⟩

theorem looksUp_durableValue (hP : P.Honest) {produce : Int → Verb T}
    (h : Blind J ctx s.seq (produce s.seq)) :
    ∃ x s', durableValue ctx T name produce s = x s' ∧
      LooksUp J ctx s.seq (stepLookup ctx s.seq) name x :=
  looksUp_nextSeq (looksUp_step (fun _ hrec => if_pos hrec) (blind_bind h fun _ =>
    blind_bind blind_toValue fun _ => blind_record hP))

/-- What `step` and `step_with` share: without a row the closure runs. -/
theorem looksUp_checkpointed (hP : P.Honest) {attempt : Verb (Except Error T)}
    (h : Stuck J ctx n attempt) :
    LooksUp J ctx n (stepLookup ctx n) name (checkpointed P ctx T n name attempt) := by
  refine (looksUp_replayOrGuard hP).bind fun found => ?_
  cases found with
  | some stored => exact blind_pure
  | none => exact blind_bind blind_perform fun _ => h.blind _

/-- The verbs that do their work unless a row says it is done. -/
theorem looksUp_unlessDone (hP : P.Honest) {work : Int → Verb Unit}
    (h : Blind J ctx s.seq (work s.seq)) :
    ∃ x s', (nextSeq >>= fun seq => replayOrGuard ctx Value seq name >>= fun
      | some _ => pure ()
      | none => work seq) s = x s' ∧ LooksUp J ctx s.seq (stepLookup ctx s.seq) name x := by
  refine looksUp_nextSeq ((looksUp_replayOrGuard hP).bind fun found => ?_)
  cases found with
  | some _ => exact blind_pure
  | none => exact h

omit [Serde T] in
theorem blind_waitOrTimeOut [Serde DateTime] (hP : P.Honest) {seq : Int} (hm : m ≠ n)
    {timeout : Duration} {wait : ChangeWait} {deadline : Option DateTime} :
    Blind J ctx n (waitOrTimeOut P ctx T seq m name timeout wait deadline) := by
  have hdeadline : Blind J ctx n (deadlineOf ctx m timeout deadline) := by
    cases deadline with
    | some d => exact blind_pure
    | none => exact blind_durableWakeAt hP hm
  refine blind_bind hdeadline fun d => blind_bind blind_perform fun now => ?_
  split
  · exact blind_bind (blind_ask hP trivial) fun _ => blind_pure
  · exact blind_bind blind_perform fun _ => blind_pure

/-- **The operations that look for a step.** -/
theorem looksUp_op [Serde DateTime] (hP : P.Honest) {o : Op} (ho : o.Checked) (s : CtxState)
    (hchild : ∀ (I : Type) [Serde I] name input opts, o ≠ .startWorkflow I name input opts)
    (htx : ∀ (T : Type) [Serde T] opts, o ≠ .transaction T opts) :
    ∃ x s', o.run P ctx s = x s' ∧ LooksUp J ctx s.seq (stepLookup ctx s.seq) o.name x := by
  cases o with
  | step T name => exact looksUp_nextSeq (looksUp_checkpointed hP stuck_runStepCatching)
  | stepWith T opts => exact looksUp_nextSeq (looksUp_checkpointed hP stuck_runWithRetries)
  | select T branches =>
    have hrun : (Op.select T branches).run P ctx s = _ := congrFun (if_neg ho) s
    rw [hrun]
    refine looksUp_nextSeq ((looksUp_replayOrGuard hP).bind fun found => ?_)
    cases found with
    | some stored => exact blind_pure
    | none =>
      exact blind_bind blind_perform fun _ => blind_bind blind_perform fun _ =>
        blind_bind blind_toValue fun _ => blind_record hP
  | sleep dur =>
    refine looksUp_nextSeq ((looksUp_durableWakeAt hP).bind fun wakeAt => ?_)
    refine blind_bind blind_perform fun now => ?_
    split
    · exact blind_pure
    · exact blind_perform
  | now => exact looksUp_durableValue hP blind_perform
  | uuid => exact looksUp_durableValue hP (blind_bind blind_perform fun _ => blind_pure)
  | random => exact looksUp_durableValue hP (blind_bind blind_perform fun _ => blind_pure)
  | send T dest message topic =>
    exact looksUp_unlessDone hP (blind_bind blind_toValue fun _ =>
      blind_bind (blind_ask hP trivial) fun _ => blind_bind (blind_ask hP trivial) fun _ =>
        blind_pure)
  | recv T topic timeout =>
    refine looksUp_nextSeqs ((looksUp_replayOrGuard hP).bind fun found => ?_)
    cases found with
    | some stored => exact blind_pure
    | none =>
      have hname : ProviderCall.Durable
        (.consumeNotification ctx.workflowId topic s.seq "DBOS.recv") := rfl
      refine blind_loop (fun deadline => blind_bind (blind_ask hP hname) fun msg => ?_) _
      cases msg with
      | some msg => exact blind_bind blind_fromValue fun _ => blind_pure
      | none => exact blind_waitOrTimeOut hP (by omega)
  | setEvent T key value =>
    exact looksUp_unlessDone hP (blind_bind blind_toValue fun _ =>
      blind_bind (blind_ask hP trivial) fun _ => blind_bind (blind_ask hP trivial) fun _ =>
        blind_pure)
  | getEvent T target key timeout =>
    refine looksUp_nextSeqs ((looksUp_replayOrGuard hP).bind fun found => ?_)
    cases found with
    | some stored => exact blind_pure
    | none =>
      have hvalue : ProviderCall.Durable (.getEventValue target key) := trivial
      refine blind_loop (fun deadline => blind_bind (blind_ask hP hvalue) fun value => ?_) _
      cases value with
      | some value =>
        exact blind_bind (blind_ask hP trivial) fun _ =>
          blind_bind (blind_ofExcept (plain_outcomeValue _)) fun _ => blind_pure
      | none => exact blind_waitOrTimeOut hP (by omega)
  | writeStream T key value =>
    exact looksUp_unlessDone hP (blind_bind blind_toValue fun _ =>
      blind_bind (blind_ask hP trivial) fun _ => blind_bind (blind_ask hP trivial) fun _ =>
        blind_pure)
  | closeStream key =>
    exact looksUp_unlessDone hP (blind_bind (blind_ask hP trivial) fun _ =>
      blind_bind (blind_ask hP trivial) fun _ => blind_pure)
  | startWorkflow I name input opts => exact absurd rfl (hchild I name input opts)
  | transaction T opts => exact absurd rfl (htx T opts)
  | patch name => exact ho.elim

variable {opts : WorkflowOptions}

theorem blind_insertRun (hP : P.Honest) {rt : Runtime} {input : Value} {parent : Option String}
    {auth : AuthContext} : Blind J ctx n (insertRun rt id name input opts parent auth) := by
  have hinsert : Blind J ctx n (insertRun.insert rt id name input opts parent auth) :=
    blind_bind blind_perform fun _ => blind_bind blind_perform fun _ =>
      blind_bind (blind_ask hP newRun_live) fun _ => blind_pure
  unfold insertRun
  split
  · split
    · exact blind_fail nofun
    · exact hinsert
  · split
    · exact blind_fail nofun
    · exact hinsert

theorem looksUp_startWorkflow (hP : P.Honest) {input : T} (s : CtxState) :
    ∃ x s', startWorkflow ctx T name input opts s = x s' ∧
      LooksUp J ctx s.seq (childLookup ctx s.seq) name x := by
  refine looksUp_nextSeq ⟨_, rfl, fun found recorded hfound hne => ?_, fun found hfound => ?_⟩
  · obtain ⟨⟨child, _⟩, rfl, rfl⟩ := map_eq_some_iff.mp hfound
    exact if_pos hne
  · obtain rfl := map_eq_none_iff.mp hfound
    refine blind_bind blind_toValue fun _ => blind_bind ?_ fun _ =>
      blind_bind (blind_ask hP trivial) fun _ => blind_pure
    unfold spawnChild
    dsimp only
    split
    · exact blind_fail nofun
    · refine blind_bind (blind_insertRun hP) fun _ => ?_
      split
      · exact blind_perform
      · exact blind_pure

/-! ## What a lookup decides -/

variable [Serde DateTime] {o : Op} {s s' : CtxState} {w : World P.State} {x : Verb o.Result}
  {recorded : String}

/-- **A divergence that the lookup finds is detected.** -/
theorem detects_of_finds (hrun : o.run P ctx s = x s') (hx : LooksUp J ctx s.seq q o.name x)
    (hfinds : ∀ w₁, SameRow J ctx s.seq w w₁ → q.Finds w₁ (some recorded))
    (hne : recorded ≠ o.name) : Detects J ctx o s w recorded := by
  obtain ⟨f, rfl, hother, -⟩ := hx
  refine .of_wp ?_ ?_
  · have hhandle : P.handle (.provider q.call) w _ _ := told
    obtain ⟨hw, a, hr, ha⟩ := hfinds w (.refl w) _ _ hhandle
    rw [hr, hw] at hhandle
    have hrefused : Proc.Runs P.handle (SameRow J ctx s.seq) ((ask q.call >>= f) s') w
        [⟨.provider q.call, w, .ok a, w⟩]
        (.error (.unexpectedStep ctx.workflowId s.seq o.name recorded), s') w := by
      refine .call hhandle ?_
      change Proc.Runs _ _ (f a s') _ _ _ _
      rw [hother a recorded ha hne]
      exact .ret
    rw [hrun]
    refine ⟨_, _, _, hrefused, fun ev hev => ?_⟩
    obtain rfl := List.mem_singleton.mp hev
    exact fun h => h
  · refine wp_of_eq hrun (wp_ask fun w₁ hw₁ r w₂ hr => ?_)
    obtain ⟨rfl, a, rfl, ha⟩ := hfinds w₁ hw₁ r w₂ hr.1
    refine ⟨⟨fun h => h.elim, fun h => h.elim, rfl⟩, ?_⟩
    rw [after_ok, hother a recorded ha hne]
    exact rfl

/-- **A divergence that the lookup does not find is not detected.** -/
theorem not_detects_of_finds (hrun : o.run P ctx s = x s') (hx : LooksUp J ctx s.seq q o.name x)
    (hfinds : ∀ w₁, SameRow J ctx s.seq w w₁ → q.Finds w₁ none) :
    ¬Detects J ctx o s w recorded := by
  obtain ⟨f, rfl, -, hnone⟩ := hx
  refine Detects.false_of_wp (wp_of_eq hrun (wp_ask fun w₁ hw₁ r w₂ hr => ⟨trivial, ?_⟩))
  obtain ⟨rfl, a, rfl, ha⟩ := hfinds w₁ hw₁ r w₂ hr.1
  exact hnone a ha s' w₂

end

variable {out : Option StepOutcome}

section

variable {P : Provider} {J : Journal P} {ctx : DurableContext} {n : Int} {w w₁ : World P.State}
  {row : J.Row}

theorem finds_step (hJ : J.Lawful) (hrow : J.row w.store ctx.workflowId n = some row)
    (hout : J.outcome row = .ok out) (hw : SameRow J ctx n w w₁) :
    (stepLookup ctx n).Finds w₁ (out.map fun _ => J.name row) := by
  intro r w' hr
  obtain ⟨rfl, rfl⟩ := hJ.lookup hr
  have hrow₁ : J.row w'.store ctx.workflowId n = some row := Eq.trans hw hrow
  refine ⟨rfl, _, by rw [hrow₁, elim_some, hout]; rfl, ?_⟩
  cases out with
  | none => rfl
  | some out => rfl

theorem finds_child (hJ : J.Lawful) (hrow : J.row w.store ctx.workflowId n = some row)
    (hw : SameRow J ctx n w w₁) :
    (childLookup ctx n).Finds w₁ ((J.child row).map fun _ => J.name row) := by
  intro r w' hr
  obtain ⟨rfl, rfl⟩ := hJ.checkChild hr
  have hrow₁ : J.row w'.store ctx.workflowId n = some row := Eq.trans hw hrow
  refine ⟨rfl, _, rfl, ?_⟩
  rw [hrow₁, bind_some]
  cases J.child row with
  | none => rfl
  | some child => rfl

end

/-! ## Transactional steps -/

namespace Sqlite

variable {X : TextCodec} {z : Serializer} {ctx : DurableContext} {n : Int}

/-- What a transactional step does with the row it selected. -/
def decided (X : TextCodec) (z : Serializer) (workflowId : String) (seq startedAtMs : Int)
    (opts : TransactionOptions) (found : Option OperationRow) : Verb Value :=
  match found with
  | some row => do
      match ← ofExcept (stepOutcomeFrom X z row) with
      | some outcome =>
        if row.functionName ≠ opts.name then
          fail (.unexpectedStep workflowId seq opts.name row.functionName)
        else ofExcept outcome.intoValueResult
      | none => userLoop X z workflowId seq startedAtMs opts
  | none => userLoop X z workflowId seq startedAtMs opts

variable {opts : TransactionOptions} {started : Int}

theorem transactionStep_eq :
    transactionStep X z id seq started opts =
      query (.selectOperation id seq) >>= decided X z id seq started opts := by
  refine congrArg (query (.selectOperation id seq) >>= ·) (funext fun found => ?_)
  cases found with
  | none => rfl
  | some row => rfl

/-- The precondition of a transactional step, by the row it selects. -/
theorem wp_runTransactionStep {W : Type} {J : Proc.Judge Eff Answer W} {id : String}
    {seq started : Int} {opts : TransactionOptions} {Q : Except Error Value → W → Prop} {w : W}
    (h : ∀ w₁, J.rely w w₁ → ∀ r w₂, J.handle (.sql (.selectOperation id seq)) w₁ r w₂ →
      J.guar (.sql (.selectOperation id seq)) w₁ r w₂ ∧
      after J (decided X z id seq started opts) (fun r _ w' => Q r w') r {} w₂) :
    Proc.wp J (runTransactionStep X z id seq started opts) Q w := by
  have hstep : wp J (transactionStep X z id seq started opts) (fun r _ w' => Q r w') {} w := by
    rw [transactionStep_eq]
    exact Verb.wp_query h
  exact Proc.wp_bind hstep

variable {row : OperationRow}

theorem decided_other {out : StepOutcome} (hout : stepOutcomeFrom X z row = .ok (some out))
    (hne : row.functionName ≠ opts.name) : decided X z id seq started opts (some row) =
      fail (.unexpectedStep id seq opts.name row.functionName) := by
  have hbind : decided X z id seq started opts (some row) = if row.functionName ≠ opts.name then
      fail (.unexpectedStep id seq opts.name row.functionName)
      else ofExcept out.intoValueResult := by
    rw [decided, hout]
    rfl
  rw [hbind, if_pos hne]

theorem decided_absent (hout : stepOutcomeFrom X z row = .ok none) :
    decided X z id seq started opts (some row) = userLoop X z id seq started opts := by
  rw [decided, hout]
  rfl

theorem stuck_transactionAttempt {name : String} :
    Stuck (journal X z) ctx n (transactionAttempt X z id seq started name) := by
  refine fun s w => Verb.wp_query fun w₁ _ r w₂ hr => ⟨trivial, ?_⟩
  have hbegin : DbError r ∨ r = .ok () := hr.1.1.1
  obtain rfl : r = .ok () := hbegin.resolve_left hr.2.1
  rw [after_ok]
  refine wp_bind (wp_attempt ?_)
  intro w₃ _ r w₄ hbody
  exact absurd trivial hbody.2.2.1

theorem stuck_userLoop : Stuck (journal X z) ctx n (userLoop X z id seq started opts) := by
  have hconflict : Stuck (journal X z) ctx n (conflictLoop X z id seq started opts.name) :=
    stuck_loop (fun _ s w => wp_bind (wp_attempt
      (wp_mono (fun _ _ _ hr => hr.elim) (stuck_transactionAttempt s w)))) _
  exact stuck_loop (fun _ s w => wp_bind (wp_mono (fun _ _ _ hr => hr.elim) (hconflict s w))) _

section

variable {T : Type} [Serde T] {opts : TransactionOptions} {s : CtxState} {w : World Db}
  {row : OperationRow} {recorded : String}

omit [Serde T] in
theorem selects {w₁ w₂ : World Db} {r : Except Error (Option OperationRow)}
    (hrow : (journal X z).row w.store ctx.workflowId n = some row)
    (hw : SameRow (journal X z) ctx n w w₁) (hok : ¬(Eff.sql (.selectOperation "" 0)).Fails r)
    (h : (provider X z).handle (.sql (.selectOperation ctx.workflowId n)) w₁ r w₂) :
    r = .ok (some row) ∧ w₂.store = w₁.store := by
  have hselect : DbError r ∨ r = .ok (w₁.store.operationOutputs.lookup (ctx.workflowId, n)) := h.1.1
  have hfound : w₁.store.operationOutputs.lookup (ctx.workflowId, n) = some row := Eq.trans hw hrow
  rw [hfound] at hselect
  exact ⟨hselect.resolve_left hok, h.1.2⟩

variable [Serde DateTime]

/-- **A transactional step detects a row with an outcome.** -/
theorem detects_transaction (hs : s.inTransaction = false)
    (hrow : (journal X z).row w.store ctx.workflowId s.seq = some row) {out : StepOutcome}
    (hout : stepOutcomeFrom X z row = .ok (some out)) (hne : row.functionName ≠ opts.name) :
    Detects (journal X z) ctx (.transaction T opts) s w row.functionName := by
  refine .of_wp ?_ ?_
  · obtain ⟨seq, flag⟩ := s
    cases hs
    have hrefused : Proc.Runs (provider X z).handle (SameRow (journal X z) ctx seq)
        (transactionWith (provider X z) ctx T opts ⟨seq, false⟩) w
        [⟨.utcNow, w, w.clock, w⟩, ⟨.sql (.selectOperation ctx.workflowId seq), w,
          .ok (some row), w⟩]
        (.error (.unexpectedStep ctx.workflowId seq opts.name row.functionName), ⟨seq + 1, false⟩)
        w := by
      refine .call ⟨rfl, rfl⟩ (.call ⟨⟨.inr (congrArg Except.ok hrow.symm), rfl⟩, rfl⟩ ?_)
      change Proc.Runs _ _ ((((Proc.bind (decided X z ctx.workflowId seq w.clock.timestampMillis
        opts (some row) {}) fun r => .ret r.1).bind _).bind _).bind _) _ _ _ _
      rw [decided_other hout hne]
      exact .ret
    refine ⟨_, _, _, hrefused, ?_⟩
    simp [Eff.Fails]
  · refine wp_transactionWith hs fun w₁ hw₁ started w₂ hr => ?_
    obtain ⟨⟨rfl, rfl⟩, -⟩ := hr
    refine ⟨⟨fun h => h, fun h => h, rfl⟩, wp_runTransactionStep fun w₃ hw₃ r w₄ hq => ?_⟩
    obtain ⟨rfl, hsame⟩ := selects hrow (hw₁.trans hw₃) hq.2 hq.1
    refine ⟨⟨fun h => h, fun h => h, hsame⟩, ?_⟩
    rw [after_ok, decided_other hout hne]
    exact rfl

/-- **A transactional step does not detect a row without one**: its body runs. -/
theorem not_detects_transaction (hs : s.inTransaction = false)
    (hrow : (journal X z).row w.store ctx.workflowId s.seq = some row)
    (hout : stepOutcomeFrom X z row = .ok none) :
    ¬Detects (journal X z) ctx (.transaction T opts) s w recorded := by
  refine Detects.false_of_wp (wp_transactionWith hs fun w₁ hw₁ started w₂ hr => ⟨trivial, ?_⟩)
  obtain ⟨⟨rfl, rfl⟩, -⟩ := hr
  refine wp_runTransactionStep fun w₃ hw₃ r w₄ hq => ⟨trivial, ?_⟩
  obtain ⟨rfl, -⟩ := selects hrow (hw₁.trans hw₃) hq.2.1 hq.1
  rw [after_ok, decided_absent hout]
  exact wp_mono (fun _ _ _ h => h.elim) (stuck_userLoop {} w₄)

end

end Sqlite

theorem Memory.not_detects_transaction [Serde DateTime] [Serde T] {opts : TransactionOptions}
    {w : World Memory.Inner} {recorded : String} (hs : s.inTransaction = false) :
    ¬Detects (Memory.journal X) ctx (.transaction T opts) s w recorded := by
  refine Detects.false_of_wp (wp_transactionWith hs fun w₁ _ started w₂ _ => ⟨trivial, ?_⟩)
  exact (plain_error (by simp [Error.code])).undetected

/-! ## Which rows an operation sees -/

/-- What the serializer wrote it reads back, and it does not fail with the error of a divergent
replay. -/
structure Serializer.Sound (s : Serializer) (X : TextCodec) : Prop where
  reads : ∀ v text, s.encode X v = .ok text → decode X s (some s.name) text = .ok v
  honest : s.Honest

theorem Serializer.BuiltIn.sound {s : Serializer} (hs : s.BuiltIn) (hX : X.Lawful) : s.Sound X where
  reads v text htext := by
    obtain ⟨text', hencode, hdecode⟩ := decode_encode (hX.carries v) hs hs.neutral
    rw [htext] at hencode
    cases hencode
    exact hdecode
  honest := by
    cases s with
    | json => trivial
    | portable => trivial
    | custom => exact hs.elim

/-- An output was written by the serializer, as the durable operations do. -/
def Sqlite.Written (X : TextCodec) (s : Serializer) (row : OperationRow) : Prop :=
  ∀ text, row.output = some text → row.serialization = some s.name ∧ ∃ v, s.encode X v = .ok text

/-- A written row can be read; it has an outcome iff it has an output or an error. -/
theorem Sqlite.outcome_of_written {s : Serializer} (hs : s.Sound X) {row : OperationRow}
    (hrow : Sqlite.Written X s row) :
    ∃ out, stepOutcomeFrom X s row = .ok out ∧
      (out.isSome ↔ row.output.isSome ∨ row.error.isSome) := by
  obtain ⟨name, output, error, format, _, _, _⟩ := row
  cases error with
  | some e => exact ⟨_, rfl, by simp⟩
  | none =>
    cases output with
    | none => exact ⟨_, rfl, by simp⟩
    | some text =>
      obtain ⟨hformat, v, hv⟩ := hrow text rfl
      dsimp only at hformat
      subst hformat
      have hread := hs.reads v text hv
      exact ⟨some (.output v), by simp [stepOutcomeFrom, hread, Except.map], by simp⟩

namespace Backend

/-- The backend's serializer is sound; in memory nothing is serialized. -/
def Sound : Backend → Prop
  | memory _ => True
  | sqlite X s _ => s.Sound X

/-- The row is one that a durable operation wrote. -/
def Written : (b : Backend) → b.journal.Row → Prop
  | memory _, _ => True
  | sqlite X s _, row => Sqlite.Written X s row

/-- The operation sees the row: it would find it in the columns it looks at. -/
def Sees (o : Op) : (b : Backend) → b.journal.Row → Prop
  | memory _, row => match o with
    | @Op.startWorkflow _ _ _ _ _ => (row : Memory.StepRow).childWorkflowId.isSome
    | @Op.transaction _ _ _ => False
    | _ => True
  | sqlite _ _ _, row => match o with
    | @Op.startWorkflow _ _ _ _ _ => (row : OperationRow).childWorkflowId.isSome
    | _ => (row : OperationRow).output.isSome ∨ (row : OperationRow).error.isSome

theorem honest : {b : Backend} → b.Sound → b.provider.Honest
  | memory X, _ => Memory.provider_honest X
  | sqlite _ _ _, hb => Sqlite.provider_honest hb.honest

end Backend

section

variable [Serde DateTime] {P : Provider} {J : Journal P} {ctx : DurableContext} {o : Op}
  {s : CtxState} {w : World P.State} {row : J.Row}

/-- A lookup that finds the row detects it, and one that does not does not. -/
theorem detects_iff_finds {q : Lookup} {x : Verb o.Result} {s' : CtxState} {found : Bool}
    (hrun : o.run P ctx s = x s') (hx : LooksUp J ctx s.seq q o.name x)
    (hfinds : ∀ w₁, SameRow J ctx s.seq w w₁ →
      q.Finds w₁ (if found then some (J.name row) else none))
    (hname : J.name row ≠ o.name) : Detects J ctx o s w (J.name row) ↔ found := by
  cases found with
  | true => exact iff_of_true (detects_of_finds hrun hx hfinds hname) rfl
  | false => exact iff_of_false (not_detects_of_finds hrun hx hfinds) Bool.false_ne_true

theorem detects_step_iff (hJ : J.Lawful) (hP : P.Honest) (ho : o.Checked)
    (hchild : ∀ (I : Type) [Serde I] name input opts, o ≠ .startWorkflow I name input opts)
    (htx : ∀ (T : Type) [Serde T] opts, o ≠ .transaction T opts)
    (hrow : J.row w.store ctx.workflowId s.seq = some row) (hout : J.outcome row = .ok out)
    (hname : J.name row ≠ o.name) : Detects J ctx o s w (J.name row) ↔ out.isSome := by
  have hlooks : ∃ x s', o.run P ctx s = x s' ∧ LooksUp J ctx s.seq _ o.name x :=
    looksUp_op hP ho s hchild htx
  obtain ⟨x, s', hrun, hx⟩ := hlooks
  refine detects_iff_finds hrun hx (fun w₁ hw₁ => ?_) hname
  have hfinds := finds_step hJ hrow hout hw₁
  cases out with
  | none => exact hfinds
  | some out => exact hfinds

theorem detects_child_iff (hJ : J.Lawful) (hP : P.Honest) {I : Type} [Serde I] {name : String}
    {input : I} {opts : WorkflowOptions} (hrow : J.row w.store ctx.workflowId s.seq = some row)
    (hname : J.name row ≠ name) :
    Detects J ctx (.startWorkflow I name input opts) s w (J.name row) ↔ (J.child row).isSome := by
  have hlooks : ∃ x s', startWorkflow ctx I name input opts s = x s' ∧
      LooksUp J ctx s.seq _ name x :=
    looksUp_startWorkflow hP s
  obtain ⟨x, s', hrun, hx⟩ := hlooks
  refine detects_iff_finds (o := .startWorkflow I name input opts) hrun hx (fun w₁ hw₁ => ?_) hname
  have hfinds := finds_child hJ hrow hw₁
  cases hchild : J.child row with
  | none =>
    rw [hchild] at hfinds
    exact hfinds
  | some child =>
    rw [hchild] at hfinds
    exact hfinds

end

/-- **An operation detects a divergence iff it sees the row.** -/
theorem divergence_detected_iff [Serde DateTime] {b : Backend} (hb : b.Sound)
    {ctx : DurableContext} {o : Op} (ho : o.Checked) {s : CtxState} (hs : s.inTransaction = false)
    {w : World b.provider.State} {row : b.journal.Row}
    (hrow : b.journal.row w.store ctx.workflowId s.seq = some row) (hwritten : b.Written row)
    (hname : b.journal.name row ≠ o.name) :
    Detects b.journal ctx o s w (b.journal.name row) ↔ b.Sees o row := by
  have hstep {out : Option StepOutcome} (hout : b.journal.outcome row = .ok out)
      (hchild : ∀ (I : Type) [Serde I] name input opts, o ≠ .startWorkflow I name input opts)
      (htx : ∀ (T : Type) [Serde T] opts, o ≠ .transaction T opts) :=
    detects_step_iff b.lawful (Backend.honest hb) ho hchild htx hrow hout hname
  cases b with
  | memory X =>
    cases o with
    | startWorkflow I name input opts =>
      exact detects_child_iff (Memory.journal_lawful X) (Memory.provider_honest X) hrow hname
    | transaction T opts => exact iff_of_false (Memory.not_detects_transaction hs) id
    | patch name => exact ho.elim
    | _ =>
      refine (hstep rfl ?_ ?_).trans (iff_of_true rfl trivial)
      · rintro _ _ _ _ _ ⟨⟩
      · rintro _ _ _ ⟨⟩
  | sqlite X z hz =>
    obtain ⟨out, hout, hsome⟩ := Sqlite.outcome_of_written hb hwritten
    cases o with
    | startWorkflow I name input opts =>
      have hhonest : (Sqlite.provider X z).Honest := Sqlite.provider_honest hb.honest
      exact detects_child_iff (Sqlite.journal_lawful hz) hhonest hrow hname
    | transaction T opts =>
      refine Iff.trans ?_ hsome
      cases out with
      | none => exact iff_of_false (Sqlite.not_detects_transaction hs hrow hout) Bool.false_ne_true
      | some out => exact iff_of_true (Sqlite.detects_transaction hs hrow hout hname) rfl
    | patch name => exact ho.elim
    | _ =>
      refine (hstep hout ?_ ?_).trans hsome
      · rintro _ _ _ _ _ ⟨⟩
      · rintro _ _ _ ⟨⟩

section

attribute [local instance] serdeNanos

/-- A workflow of an engine that also knows the workflow `invoice`. -/
def caller : DurableContext := ⟨"wf", {}, ⟨["invoice"], [], "local", ""⟩⟩

/-- The step `charge` is recorded at 0, in memory. -/
def hasCharged : World Memory.Inner where
  store := { steps := AList.singleton ("wf", 0) { name := "charge", output := some .null } }
  clock := ⟨0⟩

/-- The patch marker `v2` is recorded at 0, in the database. -/
def patched : World Sqlite.Db where
  store := {
    operationOutputs := AList.singleton ("wf", 0) { functionName := PATCH_PREFIX ++ "v2" } }
  clock := ⟨0⟩

theorem divergence_detected_iff_refund :
    Detects (Backend.memory noText).journal caller (.step Nat "refund") {} hasCharged "charge" := by
  have hname : (Backend.memory noText).journal.name
      ({ name := "charge", output := some .null } : Memory.StepRow) ≠
        (Op.step Nat "refund").name := by decide
  have hchecked : (Op.step Nat "refund").Checked := trivial
  exact (divergence_detected_iff (b := .memory noText) (w := hasCharged) trivial hchecked rfl rfl
    trivial hname).mpr trivial

/-- **Divergences that go unnoticed.**  In memory a child is started where a step is recorded; over
SQLite the closure of a step runs where a patch marker is recorded. -/
theorem divergence_unnoticed :
    Proc.May (Memory.provider noText).handle (SameRow (Memory.journal noText) caller 0)
      ((Op.startWorkflow Value "invoice" .null {}).run (Memory.provider noText)
        caller {}) hasCharged
      (fun es r _ => r.1 = .ok "wf-0" ∧ ∃ ev ∈ es, ev.call.Spawns) ∧
    Proc.May (Sqlite.provider noText .portable).handle
      (SameRow (Sqlite.journal noText .portable) caller 0)
      ((Op.step Value "charge").run (Sqlite.provider noText .portable) caller {}) patched
      (fun es _ _ => ∃ ev ∈ es, ev.call.RunsClosure) := by
  constructor
  · refine .call told (.call ⟨rfl, rfl⟩ (.call ⟨rfl, rfl⟩ (.call told (.call (r := ()) rfl
      (.call told (.ret ⟨rfl, ?_⟩))))))
    simp [Eff.Spawns]
  · refine .call told (.call told (.call ⟨rfl, rfl⟩ (.call (r := .returned (.ok .null)) rfl
      (.call told (.ret ?_)))))
    simp [Eff.RunsClosure]

end

end Durare
