import Durare.Context.FailedSteps
import Durare.Debounce.Model

/-!
# Debounce/Quiet — when a collector starts its target

The collector reads the clock, waits for a message, and counts the delay of the message **from the
reading before the wait**.  So the target may start before the message has been quiet for its delay:
by as much as the collector has waited for it.

* `Receipt` — the last message of a collector: the reading before the wait, the time it came, its
  delay.
* `spec_round` — a round leaves the loop no earlier than the start time, and sets it from the
  receipt.
* `quiet_period` — the period is kept where it does not matter from when the delay counts.
-/

namespace Durare.Debounce

open List

open Verb

/-! ## What a collector has seen -/

/-- The calls of a collector, the latest first. -/
abbrev Past (σ : Type) := List (Proc.Event Eff Answer (World σ))

/-- A world and the calls a collector has made in it. -/
abbrev Seen (b : Backend) := Traced Eff Answer (World b.provider.State)

/-- A backend whose serializer reads back what it wrote. -/
def ReadsBack : Backend → Prop
  | .memory _ => True
  | .sqlite X s _ => ∀ v text, s.encode X v = .ok text → decode X s (some s.name) text = .ok v

/-- The reading that a call records as the step `name`. -/
def recordedTime (name : String) : Eff → Option Int
  | .provider (.recordStepResult _ _ step (.number (.int t)) none _) =>
    if step = name then some t else none
  | _ => none

/-- The message a call has taken. -/
def receivedMessage : (e : Eff) → Answer e → Option DebounceMessage
  | .provider (.consumeNotification _ _ _ _), .ok (some v) => (DebounceMessage.read v).toOption
  | _, _ => none

/-- The last recorded reading of the step `name`. -/
def lastTime {σ : Type} (name : String) (past : Past σ) : Option Int :=
  past.findSome? fun ev => recordedTime name ev.call

/-- A message that was received: the reading before the wait, the time it came, its delay. -/
structure Receipt where
  loopMs : Int
  receivedMs : Int
  delayMs : Int
  deriving DecidableEq

/-- The last message received. -/
def lastReceipt {σ : Type} : Past σ → Option Receipt
  | [] => none
  | ev :: past => match receivedMessage ev.call ev.answer with
    | some msg => (lastTime LOOP_TIME past).map fun loopMs =>
      ⟨loopMs, ev.after.clock.timestampMillis, msg.delayMs⟩
    | none => lastReceipt past

/-- The collector starts its target: it inserts the row, or spawns the execution. -/
def StartsTarget : Eff → Prop
  | .provider (.insertWorkflowStatus _) | .spawn _ _ _ _ _ => True
  | _ => False

/-- The end of the quiet period: a delay after the receipt, or the cap. -/
def DebouncerInput.quietUntil (input : DebouncerInput) (start : Int) (r : Receipt) : Int :=
  if input.timeoutMs > 0 then min (r.receivedMs + r.delayMs) (start + input.timeoutMs)
  else r.receivedMs + r.delayMs

/-- **When the quiet period is kept**: the message came at the reading it is counted from, or the
cap ends the period at that reading or before the message came; delays and caps are no more than
`2 ^ 62` milliseconds.  A delay that is not positive asks for nothing. -/
def DebouncerInput.Unhurried (input : DebouncerInput) (start : Int) (r : Receipt) : Prop :=
  r.delayMs ≤ 0 ∨ r.delayMs ≤ 0x4000000000000000 ∧ input.timeoutMs ≤ 0x4000000000000000 ∧
    (r.receivedMs = r.loopMs ∨ input.timeoutMs > 0 ∧
      (start + input.timeoutMs ≤ r.loopMs + r.delayMs ∨ start + input.timeoutMs ≤ r.receivedMs))

/-- The milliseconds of an instant that `chrono` can hold. -/
def InRange (ms : Int) : Prop := -8334601228800000 ≤ ms ∧ ms ≤ 8210266876799999

/-- Others leave the rows of the collector alone, and time passes. -/
structure Patient (b : Backend) (id : String) (w w' : World b.provider.State) : Prop where
  log : ∀ n, b.journal.row w'.store id n = b.journal.row w.store id n
  clock : w.clock ≤ w'.clock
  range : InRange w.clock.timestampMillis → InRange w'.clock.timestampMillis

/-- A start now would be late enough. -/
def Timely {σ : Type} (input : DebouncerInput) (now : DateTime) (past : Past σ) : Prop :=
  ∀ start r, lastTime START_TIME past = some start → lastReceipt past = some r →
    input.Unhurried start r → input.quietUntil start r ≤ now.timestampMillis

/-- Every start of the target was late enough. -/
def Quiet {σ : Type} (input : DebouncerInput) (past : Past σ) : Prop :=
  ∀ ev before, ev :: before <:+ past → StartsTarget ev.call → Timely input ev.before.clock before

/-- One collector and its past. -/
def observing (b : Backend) (id : String) (input : DebouncerInput) :
    Proc.Judge Eff Answer (Seen b) where
  handle := Traced.handle b.provider.handle
  rely x x' := Patient b id x.world x'.world ∧ x'.past = x.past
  guar e x _ _ := StartsTarget e → Timely input x.world.clock x.past

/-! ## What a backend answers -/

variable {name : String} {r : Except Error StepOutcome} {started : Option Int} {value : Value}

section

variable {b : Backend} {id : String} {n : Int} {w w' : World b.provider.State}

theorem row_insertNew {g g' : b.provider.State} {m : Int} {row : b.journal.Row}
    (h : b.journal.log g' = (b.journal.log g).insertNew (id, n) row) (hm : m ≠ n) :
    b.journal.row g' id m = b.journal.row g id m := by
  rw [Journal.row, Journal.row, h, AList.lookup_insertNew, if_neg (by simpa using hm)]

theorem lookup_none {r : Except Error (Option RecordedStep)}
    (h : b.provider.handle (.provider (.getStepResult id n)) w r w')
    (hnone : b.journal.row w.store id n = none) : w' = w ∧ r = .ok none := by
  obtain ⟨hsame, hr⟩ := b.lawful.lookup h
  rw [hnone] at hr
  exact ⟨hsame, hr⟩

theorem handle_upsertEvent {key : String} {r : Except Error Unit}
    (h : b.provider.handle (.provider (.upsertEvent id key value)) w r w') (m : Int) :
    b.journal.row w'.store id m = b.journal.row w.store id m := by
  obtain ⟨uuid, -, rfl⟩ := Provider.handle_provider.mp h
  cases b with
  | memory X => rfl
  | sqlite X s hs =>
    change (Sqlite.journal X s).row (Sqlite.upsertEvent X s id key value w.store).2 id m = _
    unfold Sqlite.upsertEvent
    split
    · rfl
    · split_ifs <;> rfl

/-- A value recorded in the database: nothing happens, or its row is there and is answered where
none was before. -/
theorem record_value_cases {X : TextCodec} {s : Serializer} {now : DateTime} {id name : String}
    {seq : Int} {value : Value} {started : Option Int} {db : Sqlite.Db} :
    let out := Sqlite.recordStepResult X s now id seq name value none started db
    (out.2 = db ∧ ∃ e, out.1 = .error e) ∨ ∃ text, s.encode X value = .ok text ∧
      out.2.operationOutputs = db.operationOutputs.insertNew (id, seq)
        (Sqlite.resultRow s now name (some text) none started) ∧
      (db.operationOutputs.lookup (id, seq) = none →
        out.1 = (decode X s (some s.name) text).map .output) := by
  unfold Sqlite.recordStepResult
  cases htext : s.encode X value with
  | error e => exact .inl ⟨rfl, e, rfl⟩
  | ok text =>
    simp only [Option.isSome_none, Bool.false_eq_true, if_false, Except.map]
    split
    · next e _ => exact .inl ⟨rfl, e, rfl⟩
    · next db' hinsert =>
        refine .inr ⟨text, rfl, ?_, fun hnone => ?_⟩
        · rw [Sqlite.insertOperation_ok hinsert]
        · rw [hnone]
          dsimp only [Option.getD, stepOutcomeFrom, Sqlite.resultRow]
          cases decode X s (some s.name) text <;> rfl

/-- A recorded value changes its own row only, and is answered where none was before. -/
theorem handle_record
    (h : b.provider.handle (.provider (.recordStepResult id n name value none started)) w r w') :
    (∀ m, m ≠ n → b.journal.row w'.store id m = b.journal.row w.store id m) ∧
      (ReadsBack b → b.journal.row w.store id n = none →
        ∀ out, r = .ok out → out = .output value) := by
  cases b with
  | memory X =>
    obtain ⟨rfl, rfl⟩ := Memory.handle_recordStepResult h
    refine ⟨fun m hm => row_insertNew (b := .memory X) rfl hm, ?_⟩
    rintro - hnone out ⟨rfl⟩
    have hlog : Memory.log w.store id n = none := hnone
    rw [hlog]
    rfl
  | sqlite X s hs =>
    obtain ⟨uuid, rfl, rfl⟩ := Provider.handle_provider.mp h
    rcases @record_value_cases X s w.clock id name n value started w.store with
      ⟨hsame, e, herror⟩ | ⟨text, htext, hlog, hanswer⟩
    · refine ⟨fun m _ => congrArg (fun db => (Sqlite.journal X s).row db id m) hsame, ?_⟩
      intro _ _ out hout
      cases Eq.trans (Eq.symm herror) hout
    · refine ⟨fun m hm => row_insertNew (b := .sqlite X s hs) hlog hm, ?_⟩
      intro hread hnone out hout
      have hout := Eq.trans (Eq.symm (hanswer hnone)) hout
      rw [hread value text htext] at hout
      exact (Except.ok.inj hout).symm

/-- A consumption changes its own row only, and that one only if it answers a message. -/
theorem handle_consume {topic : String} {r : Except Error (Option Value)}
    (h : b.provider.handle (.provider (.consumeNotification id topic n name)) w r w') :
    (∀ m, m ≠ n → b.journal.row w'.store id m = b.journal.row w.store id m) ∧
      (r = .ok none → b.journal.row w'.store id n = b.journal.row w.store id n) := by
  cases b with
  | memory X =>
    rcases Memory.handle_consumeNotification h with ⟨-, rfl, -⟩ | ⟨note, i, -, rfl, rfl⟩
    · exact ⟨fun _ _ => rfl, fun _ => rfl⟩
    · exact ⟨fun m hm => row_insertNew (b := .memory X) rfl hm, nofun⟩
  | sqlite X s hs =>
    obtain ⟨uuid, rfl, rfl⟩ := Provider.handle_provider.mp h
    rcases Sqlite.consume_cases (X := X) (s := s) id topic n name w.store with
      ⟨hsame, -⟩ | ⟨i, letter, hclaim, hanswer⟩
    · have hrow : ∀ m, (Sqlite.journal X s).row
          (Sqlite.consumeNotification X s id topic n name w.store).2 id m =
            (Sqlite.journal X s).row w.store id m := fun m => by rw [hsame]
      exact ⟨fun m _ => hrow m, fun _ => hrow n⟩
    · obtain ⟨row, hlog, -⟩ := hclaim.log
      refine ⟨fun m hm => row_insertNew (b := .sqlite X s hs) hlog hm, fun hnone => ?_⟩
      have hread := hanswer.symm.trans hnone
      cases hbody : (Sqlite.journal X s).read letter.body with
      | error e =>
        rw [hbody] at hread
        cases hread
      | ok msg =>
        rw [hbody] at hread
        cases hread

end

/-! ## Dull calls -/

variable {e : Eff}

section

variable {b : Backend} {id : String} {input : DebouncerInput} {n m : Int}
  {x x' x'' : Seen b}

theorem DateTime.le_trans {t u v : DateTime} (h : t ≤ u) (h' : u ≤ v) : t ≤ v := Int.le_trans h h'

theorem Patient.refl (w : World b.provider.State) : Patient b id w w :=
  ⟨fun _ => rfl, Int.le_refl _, fun h => h⟩

theorem Patient.trans {u v w : World b.provider.State} (h : Patient b id u v)
    (h' : Patient b id v w) : Patient b id u w :=
  ⟨fun n => (h'.log n).trans (h.log n), DateTime.le_trans h.clock h'.clock,
    fun hr => h'.range (h.range hr)⟩

/-- No row of the collector stands at `n` or after it. -/
structure Unwritten (id : String) (n : Int) (x : Seen b) :
    Prop where
  none : ∀ m, n ≤ m → b.journal.row x.world.store id m = none
  range : InRange x.world.clock.timestampMillis

/-- Nothing that a collector counts has happened. -/
structure Idle (x x' : Seen b) : Prop where
  clock : x.world.clock ≤ x'.world.clock
  time : ∀ name, name = START_TIME ∨ name = LOOP_TIME → lastTime name x'.past = lastTime name x.past
  receipt : lastReceipt x'.past = lastReceipt x.past

theorem Idle.refl (x : Seen b) : Idle x x := ⟨Int.le_refl _, fun _ _ => rfl, rfl⟩

theorem Idle.trans (h : Idle x x') (h' : Idle x' x'') : Idle x x'' :=
  ⟨DateTime.le_trans h.clock h'.clock,
    fun name hname => (h'.time name hname).trans (h.time name hname), h'.receipt.trans h.receipt⟩

theorem Idle.of_rely (h : (observing b id input).rely x x') : Idle x x' :=
  ⟨h.1.clock, fun _ _ => by rw [h.2], by rw [h.2]⟩

theorem Unwritten.of_rely (hf : Unwritten id n x) (h : (observing b id input).rely x x') :
    Unwritten id n x' :=
  ⟨fun m hm => (h.1.log m).trans (hf.none m hm), h.1.range hf.range⟩

theorem Unwritten.mono (hf : Unwritten id n x) (h : n ≤ m) : Unwritten id m x :=
  ⟨fun k hk => hf.none k (Int.le_trans h hk), hf.range⟩

/-- A call that changes no row from `n` on. -/
theorem Unwritten.call {e : Eff} {r : Answer e} (hf : Unwritten id n x)
    (hr : (observing b id input).handle e x r x')
    (hrows : ∀ m, n ≤ m → b.journal.row x'.world.store id m = b.journal.row x.world.store id m) :
    Unwritten id n x' :=
  ⟨fun m hm => (hrows m hm).trans (hf.none m hm), Provider.handle_clock hr.1 ▸ hf.range⟩

/-- A call that records no reading and takes no message. -/
def Dull (e : Eff) (r : Answer e) : Prop :=
  recordedTime START_TIME e = none ∧ recordedTime LOOP_TIME e = none ∧ receivedMessage e r = none

theorem dull_record {error : Option String} (hstart : name ≠ START_TIME)
    (hloop : name ≠ LOOP_TIME) :
    Dull (.provider (.recordStepResult id n name value error started)) r := by
  have hother : ∀ step, name ≠ step →
      recordedTime step (.provider (.recordStepResult id n name value error started)) = none := by
    intro step hne
    unfold recordedTime
    split
    · next h =>
        cases h
        exact if_neg hne
    · rfl
  exact ⟨hother _ hstart, hother _ hloop, rfl⟩

theorem Idle.of_dull {r : Answer e} (hr : (observing b id input).handle e x r x')
    (hdull : Dull e r) : Idle x x' := by
  obtain ⟨hstart, hloop, hmsg⟩ := hdull
  refine ⟨Provider.handle_clock hr.1 ▸ Int.le_refl _, ?_, ?_⟩
  · rintro name (rfl | rfl)
    · rw [hr.2, lastTime, findSome?_cons, hstart]
      rfl
    · rw [hr.2, lastTime, findSome?_cons, hloop]
      rfl
  · rw [hr.2, lastReceipt, hmsg]

/-- Nothing has happened since `x`, and no row stands at `n` or after it. -/
structure Calm (id : String) (n : Int) (x x' : Seen b) :
    Prop where
  fresh : Unwritten id n x'
  idle : Idle x x'

theorem Calm.start (h : Unwritten id n x) : Calm id n x x := ⟨h, .refl x⟩

theorem Calm.rely (h : Calm id n x x') (hx : (observing b id input).rely x' x'') :
    Calm id n x x'' := ⟨h.fresh.of_rely hx, h.idle.trans (.of_rely hx)⟩

/-- A dull call that changes no row from `n` on. -/
theorem Calm.call {e : Eff} {r : Answer e} (h : Calm id n x x')
    (hr : (observing b id input).handle e x' r x'') (hdull : Dull e r)
    (hrows : ∀ m, n ≤ m → b.journal.row x''.world.store id m = b.journal.row x'.world.store id m) :
    Calm id n x x'' :=
  ⟨h.fresh.call hr hrows, h.idle.trans (.of_dull hr hdull)⟩

theorem Calm.look {r : Answer e} (h : Calm id n x x')
    (hr : (observing b id input).handle e x' r x'') (hdull : Dull e r)
    (hsame : x''.world.store = x'.world.store) : Calm id n x x'' :=
  h.call hr hdull fun _ _ => by rw [hsame]

end

/-! ## The parts of a round -/

variable {start targetMs : Int}

section

variable {b : Backend} {ctx : DurableContext} {input : DebouncerInput} {n : Int} {s : CtxState}
  {x x' : Seen b} {x'' : Seen b}

theorem guar_of_not_starts {r : Answer e} (h : ¬StartsTarget e) :
    (observing b ctx.workflowId input).guar e x r x'' :=
  fun hstarts => (h hstarts).elim

theorem wp_ifOk_ask {β : Type} {c : ProviderCall} {f : c.Result → Verb β}
    {R : β → CtxState → Seen b → Prop}
    (hc : ¬StartsTarget (.provider c))
    (h : ∀ x₁, (observing b ctx.workflowId input).rely x x₁ → ∀ a x₂,
      (observing b ctx.workflowId input).handle (.provider c) x₁ (.ok a) x₂ →
        wp (observing b ctx.workflowId input) (f a) (IfOk R) s x₂) :
    wp (observing b ctx.workflowId input) (ask c >>= f) (IfOk R) s x := by
  refine wp_ask fun x₁ hx₁ r x₂ hr => ⟨guar_of_not_starts hc, ?_⟩
  cases r with
  | error e => trivial
  | ok a => exact h x₁ hx₁ a x₂ hr

/-- A lookup where no row stands goes on to the work. -/
theorem wp_lookup {T β : Type} [Serde T] {expected : String} {f : Option T → Verb β}
    {R : β → CtxState → Seen b → Prop}
    (h : Calm ctx.workflowId n x x')
    (hnext : ∀ x'', Calm ctx.workflowId n x x'' →
      wp (observing b ctx.workflowId input) (f none) (IfOk R) s x'') :
    wp (observing b ctx.workflowId input) (replayOrGuard ctx T n expected >>= f) (IfOk R) s x' := by
  refine wp_replayOrGuard fun x₁ hx₁ r x₂ hr => ⟨guar_of_not_starts id, ?_⟩
  have h₁ := h.rely hx₁
  obtain ⟨hsame, rfl⟩ := lookup_none hr.1 (h₁.fresh.none n (Int.le_refl n))
  have h₂ := h₁.look hr ⟨rfl, rfl, rfl⟩ (by rw [hsame])
  refine wp_unlessCancelled fun x₃ hx₃ r x₄ hr => ⟨guar_of_not_starts id, ?_⟩
  have h₄ := (h₂.rely hx₃).look hr ⟨rfl, rfl, rfl⟩ (FailedSteps.store_getWorkflowStatus hr.1)
  cases r with
  | error e => trivial
  | ok found =>
    dsimp only
    split
    · trivial
    · exact hnext x₄ h₄

theorem lastTime_record {σ : Type} {step id : String} {m t : Int} {w w' : World σ} {past : Past σ} :
    lastTime name (⟨.provider (.recordStepResult id m step (.number (.int t)) none started),
        w, r, w'⟩ :: past) = if step = name then some t else lastTime name past := by
  by_cases h : step = name
  · simp [lastTime, recordedTime, h]
  · simp [lastTime, recordedTime, h]

/-- A step has recorded a reading of the clock. -/
structure TimeRead (name : String) (t : Int) (x x' : Seen b) :
    Prop where
  after : x.world.clock.timestampMillis ≤ t
  before : t ≤ x'.world.clock.timestampMillis
  clock : x.world.clock ≤ x'.world.clock
  last : lastTime name x'.past = some t
  other : ∀ step, step ≠ name → step = START_TIME ∨ step = LOOP_TIME →
    lastTime step x'.past = lastTime step x.past
  receipt : lastReceipt x'.past = lastReceipt x.past

/-- **A time step records the clock.** -/
theorem spec_timeStep (hb : ReadsBack b) (hf : Unwritten ctx.workflowId s.seq x) :
    wp (observing b ctx.workflowId input) (timeStep b.provider ctx name)
      (IfOk fun t s' x' => s'.seq = s.seq + 1 ∧ Unwritten ctx.workflowId (s.seq + 1) x' ∧
        TimeRead name t x x') s x := by
  refine wp_nextSeq (wp_lookup (Calm.start hf) fun x₁ h₁ => ?_)
  refine wp_perform fun x₂ hx₂ started x₃ hr => ⟨guar_of_not_starts id, ?_⟩
  have h₃ := (h₁.rely hx₂).look hr ⟨rfl, rfl, rfl⟩ (by rw [hr.1.2])
  refine wp_bind (wp_perform fun x₄ hx₄ now x₅ hnow => ⟨guar_of_not_starts id, ?_⟩)
  have h₄ := h₃.rely hx₄
  have h₅ := h₄.look hnow ⟨rfl, rfl, rfl⟩ (by rw [hnow.1.2])
  obtain ⟨⟨rfl, hsame⟩, -⟩ := hnow
  refine wp_toValue rfl (wp_ifOk_ask id fun x₆ hx₆ out x₇ hr => ?_)
  have h₆ := h₅.rely hx₆
  obtain ⟨hrows, hanswer⟩ := handle_record hr.1
  obtain rfl := hanswer hb (h₆.fresh.none _ (Int.le_refl _)) out rfl
  have hfresh := (h₆.fresh.mono (Int.le_add_one (Int.le_refl _))).call hr fun m hm =>
    hrows m (by omega)
  refine ⟨rfl, hfresh, ?_⟩
  have hafter : x₇.world.clock = x₆.world.clock := Provider.handle_clock hr.1
  refine ⟨DateTime.timestampMillis_mono h₄.idle.clock, ?_, ?_, ?_, ?_, ?_⟩
  · rw [hafter]
    exact DateTime.timestampMillis_mono (hsame ▸ hx₆.1.clock)
  · rw [hafter]
    exact h₆.idle.clock
  · rw [hr.2, lastTime_record, if_pos rfl]
  · intro step hne hstep
    rw [hr.2, lastTime_record, if_neg hne.symm]
    exact h₆.idle.time step hstep
  · rw [hr.2]
    exact h₆.idle.receipt

/-- A wait at `n` has found nothing yet: the row of its deadline stands once the deadline is set. -/
structure Waiting (id : String) (n : Int) (timeout : Duration) (deadline : Option DateTime)
    (x x' : Seen b) : Prop where
  calm : Calm id (n + 2) x x'
  unread : b.journal.row x'.world.store id n = none
  unset : deadline = none → b.journal.row x'.world.store id (n + 1) = none
  late : ∀ d, deadline = some d → x.world.clock.nanos + timeout.nanos ≤ d.nanos

section

variable {timeout : Duration} {deadline : Option DateTime}

theorem Waiting.rely (h : Waiting ctx.workflowId n timeout deadline x x')
    (hx : (observing b ctx.workflowId input).rely x' x'') :
    Waiting ctx.workflowId n timeout deadline x x'' :=
  ⟨h.calm.rely hx, (hx.1.log n).trans h.unread, fun hd => (hx.1.log (n + 1)).trans (h.unset hd),
    h.late⟩

theorem Waiting.look {r : Answer e} (h : Waiting ctx.workflowId n timeout deadline x x')
    (hr : (observing b ctx.workflowId input).handle e x' r x'') (hdull : Dull e r)
    (hrows : ∀ m, b.journal.row x''.world.store ctx.workflowId m =
      b.journal.row x'.world.store ctx.workflowId m) :
    Waiting ctx.workflowId n timeout deadline x x'' :=
  ⟨h.calm.call hr hdull fun m _ => hrows m, (hrows n).trans h.unread,
    fun hd => (hrows (n + 1)).trans (h.unset hd), h.late⟩

/-- Past the deadline the wait is over, and its timeout has passed. -/
theorem spec_timeOutOrWait {T : Type} {wait : ChangeWait} {d : DateTime}
    (h : Waiting ctx.workflowId n timeout (some d) x x') :
    wp (observing b ctx.workflowId input) (timeOutOrWait b.provider ctx T n "DBOS.recv" wait d)
      (IfOk fun r s' x'' => s' = s ∧ match r with
        | .inl deadline => Waiting ctx.workflowId n timeout deadline x x''
        | .inr got => got = none ∧ Calm ctx.workflowId (n + 2) x x'' ∧
            x.world.clock.nanos + timeout.nanos ≤ x''.world.clock.nanos) s x' := by
  refine wp_perform fun x₁ hx₁ now x₂ hnow => ⟨guar_of_not_starts id, ?_⟩
  have h₂ := (h.rely hx₁).look hnow ⟨rfl, rfl, rfl⟩ fun _ => by rw [hnow.1.2]
  obtain ⟨⟨rfl, hsame⟩, -⟩ := hnow
  by_cases hd : d ≤ x₁.world.clock
  · rw [if_pos hd]
    refine wp_ifOk_ask id fun x₃ hx₃ out x₄ hr => ?_
    have h₃ := h₂.rely hx₃
    refine ⟨rfl, rfl, ?_, ?_⟩
    · exact h₃.calm.call hr (dull_record (by decide) (by decide)) fun m hm =>
        (handle_record hr.1).1 m (by omega)
    · have hafter : x₂.world.clock.nanos ≤ x₄.world.clock.nanos := by
        rw [Provider.handle_clock hr.1]
        exact hx₃.1.clock
      rw [hsame] at hafter
      exact Int.le_trans (h.late d rfl) (Int.le_trans hd hafter)
  · rw [if_neg hd]
    exact wp_perform fun x₃ hx₃ r x₄ hr => ⟨guar_of_not_starts id, rfl,
      (h₂.rely hx₃).look hr ⟨rfl, rfl, rfl⟩ fun _ => by rw [hr.1]⟩

variable [Serde DateTime] [LawfulSerde DateTime]

theorem spec_deadlineOf (hb : ReadsBack b) (hshort : timeout.nanos ≤ 0x7fffffffffffffff * 1000000)
    (h : Waiting ctx.workflowId n timeout deadline x x') :
    wp (observing b ctx.workflowId input) (deadlineOf ctx (n + 1) timeout deadline)
      (IfOk fun d s' x'' => s' = s ∧ Waiting ctx.workflowId n timeout (some d) x x'') s x' := by
  cases deadline with
  | some d => exact ⟨rfl, h⟩
  | none =>
    refine wp_ifOk_ask id fun x₁ hx₁ found x₂ hr => ?_
    have h₁ := h.rely hx₁
    obtain ⟨hsame, hfound⟩ := lookup_none hr.1 (h₁.unset rfl)
    obtain rfl := Except.ok.inj hfound
    have h₂ := h₁.look hr ⟨rfl, rfl, rfl⟩ fun _ => by rw [hsame]
    refine wp_perform fun x₃ hx₃ now x₄ hnow => ⟨guar_of_not_starts id, ?_⟩
    have h₃ := h₂.rely hx₃
    have h₄ := h₃.look hnow ⟨rfl, rfl, rfl⟩ fun _ => by rw [hnow.1.2]
    obtain ⟨⟨rfl, -⟩, -⟩ := hnow
    obtain ⟨json, hjson, hread⟩ := LawfulSerde.roundTrip (x₃.world.clock.addStd timeout)
    refine wp_toValue hjson (wp_ifOk_ask id fun x₅ hx₅ out x₆ hr => ?_)
    have h₅ := h₄.rely hx₅
    obtain ⟨hrows, hanswer⟩ := handle_record hr.1
    obtain rfl := hanswer hb (h₅.unset rfl) out rfl
    rw [wp_ofExcept]
    have hvalue : outcomeValue DateTime (.output json) = .ok (x₃.world.clock.addStd timeout) := by
      change (Serde.fromValue json).mapError Error.serde = _
      rw [hread]
      rfl
    rw [hvalue]
    refine ⟨rfl, ?_, (hrows n (by omega)).trans h₅.unread, nofun, ?_⟩
    · exact h₅.calm.call hr (dull_record (by decide) (by decide)) fun m hm => hrows m (by omega)
    · rintro d ⟨rfl⟩
      rw [DateTime.addStd, if_pos hshort]
      exact Int.add_le_add_right h₃.calm.idle.clock _

/-- What a collector knows of a wait that is over. -/
def Received (x : Seen b) (timeout : Duration) :
    Option DebounceMessage → Seen b → Prop
  | none, x' => Idle x x' ∧ x.world.clock.nanos + timeout.nanos ≤ x'.world.clock.nanos
  | some msg, x' => x.world.clock ≤ x'.world.clock ∧
      (∀ name, name = START_TIME ∨ name = LOOP_TIME →
        lastTime name x'.past = lastTime name x.past) ∧
      lastReceipt x'.past = (lastTime LOOP_TIME x.past).map fun loopMs =>
        ⟨loopMs, x'.world.clock.timestampMillis, msg.delayMs⟩

/-- **A wait takes a message, or lasts as long as it was told to.** -/
theorem spec_recv (hb : ReadsBack b) {topic : String}
    (hshort : timeout.nanos ≤ 0x7fffffffffffffff * 1000000)
    (hf : Unwritten ctx.workflowId s.seq x) :
    wp (observing b ctx.workflowId input) (recv b.provider ctx DebounceMessage topic timeout)
      (IfOk fun got s' x' => s'.seq = s.seq + 2 ∧ Unwritten ctx.workflowId (s.seq + 2) x' ∧
        Received x timeout got x') s x := by
  refine wp_nextSeq (wp_nextSeq (wp_lookup (Calm.start hf) fun x₁ h₁ => ?_))
  refine wp_loop (fun deadline s' x' => s'.seq = s.seq + 1 + 1 ∧
    Waiting ctx.workflowId s.seq timeout deadline x x') ⟨rfl, ?_⟩ fun deadline s' x' hI => ?_
  · exact ⟨⟨h₁.fresh.mono (by omega), h₁.idle⟩, h₁.fresh.none _ (Int.le_refl _),
      fun _ => h₁.fresh.none _ (by omega), nofun⟩
  obtain ⟨hseq, h⟩ := hI
  refine wp_ask fun x₂ hx₂ r x₃ hr => ⟨guar_of_not_starts id, ?_⟩
  have h₂ := h.rely hx₂
  obtain ⟨hother, hsame⟩ := handle_consume hr.1
  match r with
  | .error e => trivial
  | .ok none =>
    have h₃ := h₂.look hr ⟨rfl, rfl, rfl⟩ fun m => by
      by_cases hm : m = s.seq
      · exact hm ▸ hsame rfl
      · exact hother m hm
    rw [after_ok]
    dsimp only [waitOrTimeOut]
    refine wp_bind (wp_mono ?_ (spec_deadlineOf hb hshort h₃))
    rintro (e | d) s₄ x₄ h₄
    · trivial
    obtain ⟨rfl, h₄⟩ := h₄
    rw [after_ok]
    refine wp_mono ?_ (spec_timeOutOrWait h₄)
    rintro (e | deadline' | got) s₅ x₅ h₅
    · trivial
    · exact ⟨h₅.1 ▸ hseq, h₅.2⟩
    · obtain ⟨rfl, rfl, hcalm, hlate⟩ := h₅
      exact ⟨hseq.trans (Int.add_assoc _ 1 1), hcalm.fresh, hcalm.idle, hlate⟩
  | .ok (some value) =>
    rw [after_ok]
    refine wp_bind ?_
    change after _ _ _ ((DebounceMessage.read value).mapError .serde) s' x₃
    cases hread : DebounceMessage.read value with
    | error e => trivial
    | ok msg =>
      have hmsg : receivedMessage (.provider (.consumeNotification ctx.workflowId topic s.seq
          "DBOS.recv")) (.ok (some value)) = some msg := by
        rw [receivedMessage, hread]
        rfl
      have hfresh := h₂.calm.fresh.call hr fun m hm => hother m (by omega)
      refine ⟨hseq.trans (Int.add_assoc _ 1 1), hfresh, ?_, ?_, ?_⟩
      · rw [Provider.handle_clock hr.1]
        exact h₂.calm.idle.clock
      · rintro name (rfl | rfl)
        · rw [hr.2]
          exact h₂.calm.idle.time _ (.inl rfl)
        · rw [hr.2]
          exact h₂.calm.idle.time _ (.inr rfl)
      · rw [hr.2, ← h₂.calm.idle.time LOOP_TIME (.inr rfl), lastReceipt]
        rw [hmsg]

end

theorem spec_setEvent {key : String} {value : Bool} (hf : Unwritten ctx.workflowId s.seq x) :
    wp (observing b ctx.workflowId input) (setEvent ctx Bool key value)
      (IfOk fun _ s' x' => s'.seq = s.seq + 1 ∧ Calm ctx.workflowId (s.seq + 1) x x') s x := by
  refine wp_nextSeq (wp_lookup (Calm.start hf) fun x₁ h₁ => ?_)
  refine wp_toValue rfl (wp_ifOk_ask id fun x₂ hx₂ _ x₃ hr => ?_)
  have h₃ := (h₁.rely hx₂).call hr ⟨rfl, rfl, rfl⟩ fun m _ => handle_upsertEvent hr.1 m
  refine wp_ifOk_ask id fun x₄ hx₄ _ x₅ hr => ⟨rfl, ?_⟩
  have h₄ := h₃.rely hx₄
  have hfresh := (h₄.fresh.mono (Int.le_add_one (Int.le_refl _))).call hr fun m hm =>
    (handle_record hr.1).1 m (by omega)
  exact ⟨hfresh, h₄.idle.trans (.of_dull hr (dull_record (by decide) (by decide)))⟩

/-! ## A round -/

/-- A collector between two rounds: it has read its start, and its start time is that of the last
message. -/
structure Aiming (id : String) (input : DebouncerInput) (start targetMs : Int) (s : CtxState)
    (x : Seen b) : Prop where
  fresh : Unwritten id s.seq x
  started : lastTime START_TIME x.past = some start
  startRange : InRange start
  aim : ∀ r, lastReceipt x.past = some r →
    targetMs = input.cap start (i64 (r.loopMs + r.delayMs)) ∧ InRange r.loopMs ∧
      r.receivedMs ≤ x.world.clock.timestampMillis

/-- **At the start time the quiet period is over**, if the message was unhurried. -/
theorem quiet_of_late {nowMs T : Int} {r : Receipt} (hstart : InRange start)
    (hloop : InRange r.loopMs) (hnow : InRange nowMs)
    (htarget : targetMs = input.cap start (i64 (r.loopMs + r.delayMs)))
    (hreceived : r.receivedMs ≤ T) (hlate : nowMs + i64 (targetMs - nowMs) ≤ T)
    (h : input.Unhurried start r) : input.quietUntil start r ≤ T := by
  subst htarget
  unfold InRange at hstart hloop hnow
  unfold DebouncerInput.Unhurried at h
  unfold DebouncerInput.quietUntil
  unfold DebouncerInput.cap i64 at hlate
  dsimp only at hlate
  split at hlate <;> split <;> omega

theorem InRange.between {a b t : Int} (ha : InRange a) (hb : InRange b) (hat : a ≤ t)
    (htb : t ≤ b) : InRange t := ⟨Int.le_trans ha.1 hat, Int.le_trans htb hb.2⟩

theorem Aiming.of_calm {s' : CtxState} (h : Aiming ctx.workflowId input start targetMs s x)
    (hx : Calm ctx.workflowId s'.seq x x') :
    Aiming ctx.workflowId input start targetMs s' x' where
  fresh := hx.fresh
  started := (hx.idle.time _ (.inl rfl)).trans h.started
  startRange := h.startRange
  aim r hr := by
    obtain ⟨htarget, hloop, hreceived⟩ := h.aim r (hx.idle.receipt.symm.trans hr)
    exact ⟨htarget, hloop, Int.le_trans hreceived (DateTime.timestampMillis_mono hx.idle.clock)⟩

/-- A collector that leaves its loop at the start time is late enough. -/
theorem Aiming.timely {nowMs : Int} (h : Aiming ctx.workflowId input start targetMs s x)
    (hnow : InRange nowMs)
    (hlate : nowMs + i64 (targetMs - nowMs) ≤ x.world.clock.timestampMillis) :
    Timely input x.world.clock x.past := by
  intro start' r hstart' hr hunhurried
  obtain rfl : start' = start := Option.some.inj (hstart'.symm.trans h.started)
  obtain ⟨htarget, hloop, hreceived⟩ := h.aim r hr
  exact quiet_of_late h.startRange hloop hnow htarget hreceived hlate hunhurried

theorem fromMillis_nanos {ms : Int} (hpos : 0 < i64 ms) :
    (Duration.fromMillis (i64 ms)).nanos = (i64 ms) * 1000000 ∧
      (Duration.fromMillis (i64 ms)).nanos ≤ 0x7fffffffffffffff * 1000000 := by
  unfold Duration.fromMillis
  unfold i64 at *
  dsimp only
  omega

/-- **One round** goes on with the start time of the message it took, or leaves when its start time
has come. -/
theorem spec_round [Serde DateTime] [LawfulSerde DateTime] (hb : ReadsBack b) {st : Int × Value}
    (h : Aiming ctx.workflowId input start st.1 s x) :
    wp (observing b ctx.workflowId input) (debounceRound b.provider ctx input start st)
      (IfOk fun r s' x' => match r with
        | .inl st' => Aiming ctx.workflowId input start st'.1 s' x'
        | .inr _ => Timely input x'.world.clock x'.past) s x := by
  refine wp_ifOk_bind (spec_timeStep hb h.fresh) fun nowMs s₁ x₁ h₁ => ?_
  obtain ⟨hseq, hfresh, hread⟩ := h₁
  have hnow : InRange nowMs := h.fresh.range.between hfresh.range hread.after hread.before
  have haim : Aiming ctx.workflowId input start st.1 s₁ x₁ := by
    refine ⟨hseq ▸ hfresh, (hread.other _ (by decide) (.inl rfl)).trans h.started, h.startRange, ?_⟩
    intro r hr
    obtain ⟨htarget, hloop, hreceived⟩ := h.aim r (hread.receipt.symm.trans hr)
    exact ⟨htarget, hloop, Int.le_trans hreceived (DateTime.timestampMillis_mono hread.clock)⟩
  by_cases hdone : i64 (st.1 - nowMs) ≤ 0
  · rw [if_pos hdone]
    exact haim.timely hnow (by have := hread.before; omega)
  rw [if_neg hdone]
  obtain ⟨hnanos, hshort⟩ := fromMillis_nanos (Int.not_le.mp hdone)
  refine wp_ifOk_bind (spec_recv hb hshort haim.fresh) fun got s₂ x₂ h₂ => ?_
  obtain ⟨hseq₂, hfresh₂, hgot⟩ := h₂
  cases got with
  | none =>
    obtain ⟨hidle, hlate⟩ := hgot
    have hcalm : Calm ctx.workflowId s₂.seq x₁ x₂ := ⟨hseq₂ ▸ hfresh₂, hidle⟩
    have haim₂ := haim.of_calm hcalm
    refine haim₂.timely hnow ?_
    have := hread.before
    unfold DateTime.timestampMillis at *
    omega
  | some msg =>
    obtain ⟨hclock, htime, hreceipt⟩ := hgot
    have haim₂ : Aiming ctx.workflowId input start (input.cap start (i64 (nowMs + msg.delayMs)))
        s₂ x₂ := by
      refine ⟨hseq₂ ▸ hfresh₂, (htime _ (.inl rfl)).trans haim.started, h.startRange, ?_⟩
      intro r hr
      have hlast : lastTime LOOP_TIME x₁.past = some nowMs := hread.last
      rw [hreceipt, hlast] at hr
      obtain rfl := Option.some.inj hr
      exact ⟨rfl, hnow, Int.le_refl _⟩
    dsimp only
    by_cases hid : msg.id = ""
    · rw [if_pos hid]
      exact haim₂
    · rw [if_neg hid]
      refine wp_ifOk_bind (spec_setEvent haim₂.fresh) fun _ s₃ x₃ h₃ => ?_
      exact haim₂.of_calm (h₃.1 ▸ h₃.2)

/-! ## The start of the target -/

theorem Timely.idle (h : Timely input x.world.clock x.past) (hi : Idle x x') :
    Timely input x'.world.clock x'.past := by
  intro start r hstart hr hunhurried
  rw [hi.time _ (.inl rfl)] at hstart
  rw [hi.receipt] at hr
  exact Int.le_trans (h start r hstart hr hunhurried) (DateTime.timestampMillis_mono hi.clock)

theorem spec_startWorkflow {opts : WorkflowOptions} (h : Timely input x.world.clock x.past) :
    wp (observing b ctx.workflowId input) (startWorkflow ctx Value name value opts)
      (fun _ _ _ => True) s x := by
  have hcalls : (startWorkflow ctx Value name value opts s).Calls fun e => ∀ r, Dull e r := by
    refine (takes_startWorkflow (fun _ => ⟨rfl, rfl, rfl⟩) (fun _ => ⟨rfl, rfl, rfl⟩)
      (fun _ _ _ => ⟨rfl, rfl, rfl⟩) ?_ fun _ _ _ _ _ _ => ⟨rfl, rfl, rfl⟩).calls
    rintro e ⟨⟩ r
    exact ⟨rfl, rfl, rfl⟩
  refine Proc.wp_mono (fun _ _ _ => trivial) (hcalls.keeps
    (I := fun x => Timely input x.world.clock x.past)
    (fun x x' hx hrely => hx.idle (.of_rely hrely))
    (fun e he x r x' hx hr => ⟨fun _ => hx, hx.idle (.of_dull hr (he r))⟩) x h)

/-- **A collector starts its target in time.** -/
theorem spec_internalDebouncer [Serde DateTime] [LawfulSerde DateTime] (hb : ReadsBack b)
    (hf : Unwritten ctx.workflowId s.seq x) (hpast : x.past = []) :
    wp (observing b ctx.workflowId input) (internalDebouncer b.provider ctx input)
      (fun _ _ _ => True) s x := by
  refine wp_mono (Q := IfOk fun _ _ _ => True) (fun _ _ _ _ => trivial) ?_
  refine wp_ifOk_bind (spec_timeStep hb hf) fun start s₁ x₁ h₁ => ?_
  obtain ⟨hseq, hfresh, hread⟩ := h₁
  have hrange : InRange start := hf.range.between hfresh.range hread.after hread.before
  have hnone : lastReceipt x₁.past = none := by
    rw [hread.receipt, hpast]
    rfl
  refine wp_ifOk_bind (Q := fun _ _ x' => Timely input x'.world.clock x'.past) ?_
    fun current s₂ x₂ h₂ => wp_bind (wp_mono ?_ (spec_startWorkflow h₂))
  · refine wp_loop (fun st s' x' => Aiming ctx.workflowId input start st.1 s' x') ?_
      fun st s' x' hst => wp_mono ?_ (spec_round hb hst)
    · exact ⟨hseq ▸ hfresh, hread.last, hrange, fun r hr => by rw [hnone] at hr; cases hr⟩
    · rintro (e | st' | v) s'' x'' h
      · trivial
      · exact h
      · exact h
  · rintro (e | id) s'' x'' -
    · trivial
    · trivial

end

/-! ## Runs -/

/-- An execution of a collector, with its calls. -/
abbrev Collector (b : Backend) :=
  Tracked Eff Answer (World b.provider.State) (Except Error Unit × CtxState)

/-- One execution of a collector, in a world that remembers its calls. -/
def collecting (b : Backend) (id : String) :
    Threads (Collector b) (Seen b) (Option (Proc.Event Eff Answer (Seen b))) :=
  .tracked b.provider.handle (fun _ => []) (fun _ _ => False) (Patient b id)

section

variable {b : Backend} {ctx : DurableContext} {input : DebouncerInput}

/-- A collector before its first call. -/
def begins [Serde DateTime] (b : Backend) (ctx : DurableContext) (input : DebouncerInput)
    (w : World b.provider.State) : Pool (Collector b) (Seen b) :=
  ⟨⟨w, []⟩, [⟨internalDebouncer b.provider ctx input {}, []⟩]⟩

/-- Every start was late enough, and the collector will keep to that. -/
structure Watched (b : Backend) (id : String) (input : DebouncerInput)
    (c : Pool (Collector b) (Seen b)) : Prop where
  quiet : Quiet input c.world.past
  alone : c.threads.length ≤ 1
  safe : ∀ t ∈ c.threads, Proc.Safe (observing b id input) t.proc (fun _ _ => True) c.world

theorem Quiet.cons {σ : Type} {past : Past σ} {ev : Proc.Event Eff Answer (World σ)}
    (h : Quiet input past) (hev : StartsTarget ev.call → Timely input ev.before.clock past) :
    Quiet input (ev :: past) := by
  intro e before hsuffix hstarts
  rcases suffix_cons_iff.mp hsuffix with heq | hsuffix
  · cases heq
    exact hev hstarts
  · exact h e before hsuffix hstarts

theorem rely_refl {id : String} (x : Seen b) :
    (observing b id input).rely x x := ⟨.refl x.world, rfl⟩

theorem Watched.step {id : String} {c c' : Pool _ _} {e}
    (hs : Pool.Step (collecting b id) c e c') (h : Watched b id input c) :
    Watched b id input c' := by
  obtain ⟨hquiet, halone, hsafe⟩ := h
  cases hs with
  | @run pre post new t t' x x' l hstep =>
    obtain ⟨p, own⟩ := t
    obtain ⟨hstep, -, rfl⟩ := hstep
    have hnew : (l.elim [] fun _ => []).map (fun p => (⟨p, []⟩ : Collector b)) = [] := by
      cases l <;> rfl
    rw [hnew]
    simp only [length_append, length_cons] at halone
    obtain rfl : pre = [] := length_eq_zero_iff.mp (by omega)
    obtain rfl : post = [] := length_eq_zero_iff.mp (by omega)
    obtain ⟨hguar, hsafe'⟩ := Proc.wp_step rely_refl (hsafe _ mem_cons_self) hstep
    refine ⟨?_, Nat.le_refl 1, ?_⟩
    · generalize t'.proc = p' at hstep
      cases hstep with
      | call hr =>
        rw [hr.2]
        exact hquiet.cons (hguar _ rfl)
      | unfold => exact hquiet
    · rintro u hu
      obtain rfl := mem_singleton.mp hu
      exact hsafe'
  | start hstart => exact hstart.1.elim
  | lose =>
    simp only [length_append, length_cons] at halone
    refine ⟨hquiet, ?_, fun u hu => hsafe u ?_⟩
    · simp only [length_append]
      omega
    · simp only [mem_append, mem_cons] at hu ⊢
      tauto
  | env henv =>
    refine ⟨?_, halone, fun u hu => (hsafe u hu).env ?_ henv⟩
    · dsimp only
      rw [henv.2]
      exact hquiet
    · exact fun h h' => ⟨h.1.trans h'.1, h'.2.trans h.2⟩

/-- **The quiet period is kept** in every run of a collector, where it does not matter from when a
delay counts. -/
theorem quiet_period [Serde DateTime] [LawfulSerde DateTime] (hb : ReadsBack b)
    {w : World b.provider.State}
    (hnew : ∀ n, b.journal.row w.store ctx.workflowId n = none)
    (hrange : InRange w.clock.timestampMillis) {c}
    (h : Pool.Run (collecting b ctx.workflowId) (fun _ _ _ => True) (begins b ctx input w) c) :
    Quiet input c.world.past := by
  have hstart : Watched b ctx.workflowId input (begins b ctx input w) := by
    refine ⟨fun ev before hev => ?_, Nat.le_refl 1, fun t ht => ?_⟩
    · cases suffix_nil.mp hev
    · obtain rfl := mem_singleton.mp ht
      exact ⟨_, rely_refl _, spec_internalDebouncer hb ⟨fun m _ => hnew m, hrange⟩ rfl⟩
  exact (h.pool (fun _ _ _ hs _ hc => hc.step hs) hstart).quiet

/-! ## Two collectors -/

attribute [local instance] serdeNanos

/-- The steps of a collector in memory. -/
def collect (n : Nat) (x : Collector (.memory noText) × Seen (.memory noText)) :
    Collector (.memory noText) × Seen (.memory noText) :=
  Pool.drive (Tracked.next (Memory.provider noText).answer) n x.1 x.2

/-- Time has passed and there is new mail. -/
def mailAt (ms : Int) (mail : List Memory.NotificationRow) (w : World Memory.Inner) :
    World Memory.Inner :=
  ⟨{ w.store with notifications := mail }, ⟨ms * 1000000⟩⟩

def anyCollector : DurableContext := ⟨"c", {}, ⟨["t"], [], "", ""⟩⟩

/-- A collector whose first delay is ten seconds. -/
def tenSeconds : DebouncerInput where
  targetName := "t"
  targetId := "x"
  delayMs := 10000
  timeoutMs := 0
  initialInput := .null

/-- A message with a delay of a second. -/
def oneSecond : Memory.NotificationRow where
  messageUuid := ""
  destinationId := "c"
  topic := DEBOUNCER_TOPIC
  message := .object (DebounceMessage.fields ⟨.null, 1000, ""⟩)
  consumed := false
  createdAtMs := 0

/-- The collector starts at zero with this mail. -/
def fromZero (mail : List Memory.NotificationRow) :
    Collector (.memory noText) × Seen (.memory noText) :=
  (⟨internalDebouncer (Memory.provider noText) anyCollector tenSeconds {}, []⟩,
    ⟨⟨({ notifications := mail } : Memory.Inner), ⟨0⟩⟩, []⟩)

/-- The runs of the collector. -/
def ReachedFrom (mail : List Memory.NotificationRow)
    (x : Collector (.memory noText) × Seen (.memory noText)) : Prop :=
  Pool.Run (collecting (.memory noText) anyCollector.workflowId) (fun _ _ _ => True)
    (begins (.memory noText) anyCollector tenSeconds (fromZero mail).2.world) ⟨x.2, [x.1]⟩

variable {mail : List Memory.NotificationRow}
  {x : Collector (.memory noText) × Seen (.memory noText)}

theorem ReachedFrom.collect (h : ReachedFrom mail x) (n : Nat) : ReachedFrom mail (collect n x) :=
  Pool.Run.driveAt (fun _ _ _ _ hstep => Tracked.step_next Provider.handle_answer hstep)
    (fun _ _ _ _ => trivial) 0 n h rfl

theorem ReachedFrom.mailAt {new : List Memory.NotificationRow} (h : ReachedFrom mail x) {ms : Int}
    (hclock : x.2.world.clock ≤ ⟨ms * 1000000⟩)
    (hrange : InRange (DateTime.timestampMillis ⟨ms * 1000000⟩)) :
    ReachedFrom mail (x.1, ⟨mailAt ms new x.2.world, x.2.past⟩) :=
  h.tail (.env ⟨⟨fun _ => rfl, hclock, fun _ => hrange⟩, rfl⟩) trivial

/-- A message that is there from the start is taken at once; the collector waits for its delay. -/
def waited := collect 30 (fromZero [oneSecond])

/-- After a second the collector starts its target. -/
def onTime := collect 8 (waited.1, ⟨mailAt 1000 [] waited.2.world, waited.2.past⟩)

set_option maxRecDepth 4000 in
theorem quiet_period_onTime : Quiet tenSeconds onTime.2.past ∧
    ∃ ev before, ev :: before <:+ onTime.2.past ∧ StartsTarget ev.call ∧
      lastTime START_TIME before = some 0 ∧ lastReceipt before = some ⟨0, 0, 1000⟩ ∧
      tenSeconds.Unhurried 0 ⟨0, 0, 1000⟩ ∧
      tenSeconds.quietUntil 0 ⟨0, 0, 1000⟩ = ev.before.clock.timestampMillis := by
  have hwaited : ReachedFrom [oneSecond] waited :=
    ReachedFrom.collect (.refl (begins _ _ _ (fromZero [oneSecond]).2.world)) 30
  have hrun : ReachedFrom [oneSecond] onTime :=
    (hwaited.mailAt (by decide +kernel) (by unfold InRange; decide)).collect 8
  have := lawful_serdeNanos
  have hquiet := quiet_period (b := .memory noText) trivial (fun _ => rfl)
    (by unfold InRange; decide) hrun
  refine ⟨hquiet, _, _, ⟨[], rfl⟩, trivial, ?_, ?_, .inr ⟨by decide, by decide, .inl rfl⟩, ?_⟩
  · decide +kernel
  · decide +kernel
  · decide +kernel

/-- The collector waits for a message. -/
def waits := collect 20 (fromZero [])

/-- Nine seconds later a message comes, and the collector starts its target. -/
def early := collect 12 (waits.1, ⟨mailAt 9000 [oneSecond] waits.2.world, waits.2.past⟩)

set_option maxRecDepth 4000 in
/-- **The target starts when its message comes**, a second before the quiet period is over. -/
theorem target_starts_early : ∃ c, Pool.Run (collecting (.memory noText) "c") (fun _ _ _ => True)
      (begins (.memory noText) anyCollector tenSeconds ⟨({} : Memory.Inner), ⟨0⟩⟩) c ∧
    ∃ ev before, ev :: before <:+ c.world.past ∧ StartsTarget ev.call ∧
      lastTime START_TIME before = some 0 ∧ lastReceipt before = some ⟨0, 9000, 1000⟩ ∧
      ev.before.clock.timestampMillis = 9000 ∧
      tenSeconds.quietUntil 0 ⟨0, 9000, 1000⟩ = 10000 := by
  have hwaits : ReachedFrom [] waits := ReachedFrom.collect
    (.refl (begins _ _ _ (fromZero []).2.world)) 20
  have hrun : ReachedFrom [] early :=
    (hwaits.mailAt (by decide +kernel) (by unfold InRange; decide)).collect 12
  refine ⟨⟨early.2, [early.1]⟩, hrun, _, _, ⟨[], rfl⟩, trivial, ?_, ?_, ?_, ?_⟩
  · decide +kernel
  · decide +kernel
  · decide +kernel
  · decide +kernel

end

end Durare.Debounce
