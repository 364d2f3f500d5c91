import Durare.Context.Slots
import Durare.Streams.Log

/-!
# Streams/Closing — a workflow that closes its streams, crashes, and runs again

`closeStream` appends the seal and records its row in two calls.  A crash between the two leaves a
stream that is **closed without a record** (`Torn`): the next execution closes it again, and is told
that it is closed already.

`survives_crashes` says that this is the only trouble.  The workflow is any program whose other
operations answer the same in every execution; with these answers it has one course, along which no
operation on a stream follows its close.  As long as no crash tears a close, every write and every
close succeeds, in every execution.
-/

namespace Durare.Closing

open Option

open Memory Verb SealedLog

section

variable {ε R : Type}

/-! ## The course of a program -/

/-- Every stream operation succeeds, every patch is in force, and the other operations answer as
they do. -/
def answered (others : Int → (o : Op) → Except ε o.Result) (n : Int) : (o : Op) → Except ε o.Result
  | @Op.writeStream _ _ _ _ | .closeStream _ => .ok ()
  | .patch _ => .ok true
  | o => others n o

variable (others : Int → (o : Op) → Except ε o.Result) (p : Workflow ε R)

/-- The program comes to `q` at the sequence number `n`. -/
abbrev ComesTo (q : Workflow ε R) (n : Int) : Prop := p.Course Op.width (answered others) 0 q n

/-- The values that are written can be, and nothing is written to a stream after its close, nor is
it closed again. -/
structure ClosesOnce : Prop where
  writable : ∀ {T : Type} [Serde T] {key : String} {value : T}
    {k : Except ε Unit → Workflow ε R} {n : Int},
    ComesTo others p (.op (.writeStream T key value) k) n → ∃ json, Serde.toValue value = .ok json
  order : ∀ {key : String} {k : Except ε Unit → Workflow ε R} {n m : Int} {o : Op}
    {k' : Except ε o.Result → Workflow ε R},
    ComesTo others p (.op (.closeStream key) k) n →
    (k (.ok ())).Course Op.width (answered others) (n + 1) (.op o k') m → o.stream ≠ some key

end

/-! ## Crashes -/

/-- The close of a stream is in the stream, and not in the log. -/
def Torn {ε R : Type} (id : String) (c : Single ε R Inner) : Prop :=
  ∃ key s proc k, c.exec = .inside (.closeStream key) s proc k ∧
    isSealed (streamOf c.world.store id key) = true ∧ log c.world.store id s.seq = none

/-- No crash tears a close, and the other operations answer as they do. -/
def Whole {ε R : Type} (id : String) (view : Error → ε)
    (others : Int → (o : Op) → Except ε o.Result) (c : Single ε R Inner) (l : Label R Inner)
    (_ : Single ε R Inner) : Prop :=
  match l with
  | .restart => ¬Torn id c
  | .returned o n r => o.stream = none → r.mapError view = answered others n o
  | _ => True

/-- The rest of the system leaves the log and the streams of the workflow alone, and does not cancel
it. -/
structure Apart (id : String) (w w' : World Inner) : Prop where
  log : ∀ n, log w'.store id n = log w.store id n
  streams : ∀ key, streamOf w'.store id key = streamOf w.store id key
  live : Live id w.store → Live id w'.store

variable {id : String}

theorem Apart.refl (w : World Inner) : Apart id w w :=
  ⟨fun _ => rfl, fun _ => rfl, fun h => h⟩

theorem Apart.trans {a b c : World Inner} (h : Apart id a b) (h' : Apart id b c) : Apart id a c :=
  ⟨fun n => (h'.log n).trans (h.log n), fun key => (h'.streams key).trans (h.streams key),
    fun hlive => h'.live (h.live hlive)⟩

/-- A workflow that has not begun. -/
structure NotBegun (id : String) (w : World Inner) : Prop where
  log : ∀ n, log w.store id n = none
  streams : ∀ key, isSealed (streamOf w.store id key) = false
  live : Live id w.store

/-! ## One operation on a stream -/

/-- The row of an operation on a stream. -/
def Done (o : Op) (row : StepRow) : Prop := row.name = o.name ∧ row.error = none

/-- What an effect of the operation `o` at `n` does: it may record its row, and it may close its
stream. -/
structure Appends (id : String) (n : Int) (o : Op) (w w' : World Inner) : Prop where
  off : ∀ i, i ≠ n → log w'.store id i = log w.store id i
  stays : ∀ row, log w.store id n = some row → log w'.store id n = some row
  row : ∀ row, log w'.store id n = some row → log w.store id n = none → Done o row
  closes : ∀ key, isSealed (streamOf w'.store id key) = true →
    isSealed (streamOf w.store id key) = true ∨ o = .closeStream key
  live : Live id w.store → Live id w'.store

def appending (X : TextCodec) (id : String) (n : Int) (o : Op) :
    Proc.Judge Eff Answer (World Inner) where
  handle := (provider X).handle
  rely := Apart id
  guar _ w _ w' := Appends id n o w w'

/-- The operation finds its row, or a stream that is open. -/
structure Ready (id key : String) (n : Int) (o : Op) (w : World Inner) : Prop where
  row : ∀ row, log w.store id n = some row → Done o row
  isOpen : log w.store id n = none → isSealed (streamOf w.store id key) = false
  live : Live id w.store

variable {w' : World Inner}

theorem Ready.apart {key : String} {n : Int} {o : Op} {w : World Inner} (h : Ready id key n o w)
    (hw : Apart id w w') : Ready id key n o w' := by
  refine ⟨?_, ?_, hw.live h.live⟩
  · rw [hw.log]
    exact h.row
  · rw [hw.log, hw.streams]
    exact h.isOpen

theorem Appends.refl {n : Int} {o : Op} (w : World Inner) : Appends id n o w w := by
  refine ⟨fun _ _ => rfl, fun _ h => h, fun row h hnone => ?_, fun _ h => .inl h, fun h => h⟩
  rw [hnone] at h
  cases h

variable {X : TextCodec} {ctx : DurableContext} {key : String} {n : Int} {o : Op} {s : CtxState}
  {w : World Inner} {value : Option Value}

theorem handle_append {seq : Int} {r : Except Error Unit}
    (hopen : isSealed (streamOf w.store id key) = false)
    (hvalue : value = none → o = .closeStream key)
    (h : (provider X).handle (.provider (.writeStream id key value seq)) w r w') :
    r = .ok () ∧ (∀ i, log w'.store id i = log w.store id i) ∧ Appends id n o w w' := by
  obtain ⟨uuid, rfl, rfl⟩ := Provider.handle_provider.mp h
  have hanswer := writeStream_answer id key value w.store
  rw [hopen] at hanswer
  have hframe := writeStream_frame id key value w.store
  have hlog (i : Int) : log (Memory.writeStream id key value w.store).2 id i =
      log w.store id i := by
    rw [log, hframe.1, log]
  refine ⟨hanswer, hlog, fun i _ => hlog i, fun row hrow => (hlog n).trans hrow,
    fun row hrow hnone => ?_, fun key' hsealed => ?_, fun hlive => ?_⟩
  · cases hnone.symm.trans ((hlog n).symm.trans hrow)
  · change isSealed (streamOf (Memory.writeStream id key value w.store).2 id key') = true at hsealed
    rw [streamOf_writeStream] at hsealed
    split at hsealed
    · next happ =>
        cases happ.1
        cases value with
        | none => exact .inr (hvalue rfl)
        | some v => simp [hopen] at hsealed
    · exact .inl hsealed
  · change Live id (Memory.writeStream id key value w.store).2
    rw [Live, hframe.2]
    exact hlive

/-- **The append and its record.** -/
theorem spec_append (hvalue : value = none → o = .closeStream key)
    (hready : Ready ctx.workflowId key n o w) (hnone : log w.store ctx.workflowId n = none) :
    wp (appending X ctx.workflowId n o) (ask (.writeStream ctx.workflowId key value n) >>= fun _ =>
      ask (.recordStepResult ctx.workflowId n o.name .null none none) >>= fun _ => pure ())
      (fun r _ w' => r = .ok () ∧ (log w'.store ctx.workflowId n).isSome) s w := by
  refine wp_ask fun w₁ hw₁ r w₂ hr => ?_
  have hopen := (hready.apart hw₁).isOpen ((hw₁.log n).trans hnone)
  obtain ⟨rfl, hlog, happends⟩ := handle_append (n := n) hopen hvalue hr
  refine ⟨happends, ?_⟩
  rw [after_ok]
  refine wp_ask fun w₃ hw₃ r w₄ hr => ?_
  have hnone₃ : log w₃.store ctx.workflowId n = none :=
    ((hw₃.log n).trans (hlog n)).trans ((hw₁.log n).trans hnone)
  obtain ⟨rfl, rfl⟩ := handle_recordStepResult hr
  have hrow : log _ ctx.workflowId n = some (resultRow w₃.clock o.name .null none none) :=
    log_insertNew_self hnone₃
  refine ⟨⟨fun i hi => log_insertNew hi.symm, fun row h => ?_, fun row h _ => ?_,
    fun _ h => .inl h, fun h => h⟩, rfl, isSome_of_eq_some hrow⟩
  · cases hnone₃.symm.trans h
  · cases hrow.symm.trans h
    exact ⟨rfl, rfl⟩

theorem spec_lookup {work : Verb Unit} (hready : Ready ctx.workflowId key n o w)
    (hwork : ∀ w₁, Ready ctx.workflowId key n o w₁ → log w₁.store ctx.workflowId n = none →
      wp (appending X ctx.workflowId n o) work
        (fun r _ w' => r = .ok () ∧ (log w'.store ctx.workflowId n).isSome) s w₁) :
    wp (appending X ctx.workflowId n o) (replayOrGuard ctx Value n o.name >>= fun
      | some _ => pure ()
      | none => work) (fun r _ w' => r = .ok () ∧ (log w'.store ctx.workflowId n).isSome) s w := by
  refine wp_replayOrGuard fun w₁ hw₁ r w₂ hr => ?_
  obtain ⟨rfl, rfl⟩ := handle_getStepResult hr
  have hready₂ := hready.apart hw₁
  refine ⟨.refl w₂, ?_⟩
  cases hlog : log w₂.store ctx.workflowId n with
  | some row =>
    obtain ⟨hname, herror⟩ := hready₂.row row hlog
    have hout : outcomeValue Value (stepRowOutcome row) = .ok (row.output.getD .null) := by
      simp only [stepRowOutcome, herror]
      rfl
    dsimp only [map_some]
    rw [if_pos hname, hout]
    exact ⟨rfl, isSome_of_eq_some hlog⟩
  | none =>
    refine wp_unlessCancelled fun w₃ hw₃ r w₄ hr => ?_
    obtain ⟨rfl, rfl⟩ := handle_getWorkflowStatus hr
    have hready₄ := hready₂.apart hw₃
    refine ⟨.refl w₄, ?_⟩
    dsimp only
    rw [if_neg hready₄.live]
    exact hwork w₄ hready₄ ((hw₃.log n).trans hlog)

/-- **An operation on a stream that is ready succeeds, and leaves its row.** -/
theorem spec_stream [Serde DateTime] (ho : o.stream = some key) (hs : s.seq = n)
    (hwritable : ∀ {T : Type} [Serde T] {value : T}, o = .writeStream T key value →
      ∃ json, Serde.toValue value = .ok json) (hready : Ready ctx.workflowId key n o w) :
    wp (appending X ctx.workflowId n o) (o.run (provider X) ctx)
      (fun r _ w' => (∃ v, r = .ok v) ∧ (log w'.store ctx.workflowId n).isSome) s w := by
  subst hs
  cases o with
  | writeStream T key' value =>
    cases ho
    obtain ⟨json, hjson⟩ := hwritable rfl
    refine wp_mono (fun _ _ _ h => ⟨⟨(), h.1⟩, h.2⟩)
      (wp_nextSeq (spec_lookup hready fun w₁ hready₁ hnone => wp_toValue hjson ?_))
    exact spec_append (o := .writeStream T key value) nofun hready₁ hnone
  | closeStream key' =>
    cases ho
    refine wp_mono (fun _ _ _ h => ⟨⟨(), h.1⟩, h.2⟩)
      (wp_nextSeq (spec_lookup hready fun w₁ hready₁ hnone => ?_))
    exact spec_append (o := .closeStream key) (fun _ => rfl) hready₁ hnone
  | _ => cases ho

/-! ## Runs -/

section

variable {ε R : Type} {others : Int → (o : Op) → Except ε o.Result} {p : Workflow ε R}
  {id : String} {w' : World Inner}

theorem width_of_stream (ho : o.stream ≠ none) : o.width = 1 := by
  cases o with
  | writeStream | closeStream => rfl
  | _ => exact absurd rfl ho

variable {k : Except ε o.Result → Workflow ε R}

/-- An operation on a stream lies outside the sequence numbers of any other operation. -/
theorem ComesTo.off {o' : Op} {k' : Except ε o'.Result → Workflow ε R} {m : Int}
    (h : ComesTo others p (.op o k) n) (h' : ComesTo others p (.op o' k') m) (ho : o.stream = none)
    (ho' : o'.stream ≠ none) : m < n ∨ n + o.width ≤ m := by
  obtain ⟨heq, -⟩ | hnext | hnext := h.trichotomy h'
  · cases heq
    exact absurd ho ho'
  · exact .inr hnext.le
  · have hle := hnext.le
    rw [width_of_stream ho'] at hle
    omega

variable (others p id) in
/-- The operations on streams before `m` have their rows. -/
def Past (m : Int) (w : World Inner) : Prop :=
  ∀ (o : Op) (k : Except ε o.Result → Workflow ε R) (n : Int), ComesTo others p (.op o k) n →
    o.stream ≠ none → n < m → (log w.store id n).isSome

variable (others p id) in
/-- The rows of the operations on streams are theirs, and they were recorded one after the other. -/
structure Sound (w : World Inner) : Prop where
  live : Live id w.store
  done : ∀ {o : Op} {k : Except ε o.Result → Workflow ε R} {n : Int} {row : StepRow},
    ComesTo others p (.op o k) n → o.stream ≠ none → log w.store id n = some row → Done o row
  order : ∀ {o : Op} {k : Except ε o.Result → Workflow ε R} {n : Int},
    ComesTo others p (.op o k) n → o.stream ≠ none → (log w.store id n).isSome →
      Past others p id n w

variable (others p id) in
/-- A stream that is closed was closed by an operation that has its row, or is under way. -/
def Closed (w : World Inner) (e : Exec ε R) : Prop :=
  ∀ key, isSealed (streamOf w.store id key) = true →
    (∃ k n, ComesTo others p (.op (.closeStream key) k) n ∧ (log w.store id n).isSome) ∨
      ∃ s proc k, e = .inside (.closeStream key) s proc k

theorem Past.stays {m : Int} (h : Past others p id m w)
    (hstays : ∀ i row, log w.store id i = some row → log w'.store id i = some row) :
    Past others p id m w' := by
  intro o k n hcomes ho hn
  obtain ⟨row, hrow⟩ := isSome_iff_exists.mp (h o k n hcomes ho hn)
  exact isSome_of_eq_some (hstays n row hrow)

/-- **Rows are only added, and each by its operation.** -/
theorem Sound.step (h : Sound others p id w)
    (hstays : ∀ i row, log w.store id i = some row → log w'.store id i = some row)
    (hnew : ∀ {o : Op} {k : Except ε o.Result → Workflow ε R} {n : Int} {row : StepRow},
      ComesTo others p (.op o k) n → o.stream ≠ none → log w'.store id n = some row →
        log w.store id n = none → Done o row ∧ Past others p id n w)
    (hlive : Live id w.store → Live id w'.store) : Sound others p id w' := by
  refine ⟨hlive h.live, fun {o k n row} hcomes ho hrow => ?_, fun {o k n} hcomes ho hrow => ?_⟩
  · cases hold : log w.store id n with
    | none => exact (hnew hcomes ho hrow hold).1
    | some old =>
      cases (hstays n old hold).symm.trans hrow
      exact h.done hcomes ho hold
  · cases hold : log w.store id n with
    | none =>
      obtain ⟨row, hrow⟩ := isSome_iff_exists.mp hrow
      exact (hnew hcomes ho hrow hold).2.stays hstays
    | some old => exact (h.order hcomes ho (isSome_of_eq_some hold)).stays hstays

/-- An operation on a stream that the program comes to is ready. -/
theorem Sound.ready (hp : ClosesOnce others p) (h : Sound others p id w) {e : Exec ε R}
    (hclosed : Closed others p id w e) (he : ∀ o s proc k, e ≠ .inside o s proc k)
    (hcomes : ComesTo others p (.op o k) n) (ho : o.stream = some key) : Ready id key n o w := by
  have hstream : o.stream ≠ none := by rw [ho]; simp
  refine ⟨fun row hrow => h.done hcomes hstream hrow, fun hnone => ?_, h.live⟩
  refine Bool.eq_false_iff.mpr fun hsealed => ?_
  obtain ⟨k', m, hclose, hrow⟩ | ⟨s, proc, k', hin⟩ := hclosed key hsealed
  · obtain ⟨heq, rfl⟩ | hnext | hnext := hclose.trichotomy hcomes
    · rw [hnone] at hrow
      cases hrow
    · exact hp.order hclose hnext ho
    · have hle := hnext.le
      rw [width_of_stream hstream] at hle
      have hpast := h.order hclose (by simp [Op.stream]) hrow o k n hcomes hstream (by omega)
      rw [hnone] at hpast
      cases hpast
  · exact he _ _ _ _ hin

end

variable {r : Except Error o.Result}

section

variable {ε R : Type} {others : Int → (o : Op) → Except ε o.Result} {p : Workflow ε R}
  {view : Error → ε} {w' : World Inner}

variable (X ctx others p) in
/-- What holds of an execution in its world: it is on the course of the program, and the operation
under way does what it has to. -/
def Running (w : World Inner) : Exec ε R → Prop
  | .at q s => ComesTo others p q s.seq ∧ s.inTransaction = false ∧
      Past others p ctx.workflowId s.seq w
  | .inside o s proc k => (ComesTo others p (.op o k) s.seq ∧ s.inTransaction = false ∧
      Past others p ctx.workflowId s.seq w) ∧
      Proc.Safe unconstrained proc
        (fun r _ => r.2 = { s with seq := s.seq + o.advance r.1 }) () ∧
      if o.stream = none then proc.Calls (Eff.Local ctx.workflowId s.seq (s.seq + o.width))
      else Proc.Safe (appending X ctx.workflowId s.seq o) proc
        (fun r w' => (∃ v, r.1 = .ok v) ∧ (log w'.store ctx.workflowId s.seq).isSome) w
  | .finished r => r = p.result Op.width (answered others) 0

variable (X ctx others p) in
/-- The invariant of one execution at a time. -/
structure Inv (c : Single ε R Inner) : Prop where
  sound : Sound others p ctx.workflowId c.world
  closed : Closed others p ctx.workflowId c.world c.exec
  running : Running X ctx others p c.world c.exec

theorem inv_env {e : Exec ε R} (h : Inv X ctx others p ⟨w, e⟩) (hw : Apart ctx.workflowId w w') :
    Inv X ctx others p ⟨w', e⟩ := by
  have hstays (i : Int) (row : StepRow) (hrow : log w.store ctx.workflowId i = some row) :
      log w'.store ctx.workflowId i = some row := (hw.log i).trans hrow
  refine ⟨h.sound.step hstays (fun {o k n row} _ _ hrow hnone => ?_) hw.live,
    fun key hsealed => ?_, ?_⟩
  · rw [hw.log, hnone] at hrow
    cases hrow
  · rw [hw.streams] at hsealed
    refine (h.closed key hsealed).imp_left fun ⟨k, n, hcomes, hrow⟩ => ⟨k, n, hcomes, ?_⟩
    rw [hw.log]
    exact hrow
  · cases e with
    | «at» q s => exact ⟨h.running.1, h.running.2.1, h.running.2.2.stays hstays⟩
    | inside o s proc k =>
      obtain ⟨⟨hcomes, hs, hpast⟩, hcounts, hspec⟩ := h.running
      refine ⟨⟨hcomes, hs, hpast.stays hstays⟩, hcounts, ?_⟩
      split
      · next ho =>
          rw [if_pos ho] at hspec
          exact hspec
      · next ho =>
          rw [if_neg ho] at hspec
          exact hspec.env .trans hw
    | finished r => exact h.running

theorem inv_restart {e : Exec ε R} (h : Inv X ctx others p ⟨w, e⟩)
    (hwhole : ¬Torn ctx.workflowId ⟨w, e⟩) : Inv X ctx others p ⟨w, .at p {}⟩ := by
  refine ⟨h.sound, fun key hsealed => .inl ?_, .nil, rfl, fun o k n hcomes _ hn => ?_⟩
  · obtain hclose | ⟨s, proc, k, rfl⟩ := h.closed key hsealed
    · exact hclose
    · refine ⟨k, s.seq, h.running.1.1, isSome_iff_ne_none.mpr fun hnone => hwhole ?_⟩
      exact ⟨key, s, proc, k, rfl, hsealed, hnone⟩
  · exact absurd hcomes.le (not_le.mpr hn)

theorem inv_other {k : Except ε o.Result → Workflow ε R}
    {proc proc' : Proc Eff Answer (Except Error o.Result × CtxState)}
    (h : Inv X ctx others p ⟨w, .inside o s proc k⟩) (ho : o.stream = none)
    (hchanges : Changes ctx.workflowId s.seq (s.seq + o.width) w.store w'.store)
    (hcounts : Proc.Safe unconstrained proc'
      (fun r _ => r.2 = { s with seq := s.seq + o.advance r.1 }) ())
    (hcalls : proc'.Calls (Eff.Local ctx.workflowId s.seq (s.seq + o.width))) :
    Inv X ctx others p ⟨w', .inside o s proc' k⟩ := by
  obtain ⟨⟨hcomes, hs, hpast⟩, -, -⟩ := h.running
  have hstays (i : Int) (row : StepRow) := @Changes.stays _ _ _ _ _ hchanges i row
  refine ⟨h.sound.step hstays (fun {o' k' n row} hcomes' ho' hrow hnone => ?_) hchanges.live,
    fun key hsealed => .inl ?_, ⟨hcomes, hs, hpast.stays hstays⟩, hcounts, ?_⟩
  · -- The sequence numbers of the operation are none of a stream's.
    rw [hchanges.off (hcomes.off hcomes' ho ho'), hnone] at hrow
    cases hrow
  · rw [streamOf_congr hchanges.streams] at hsealed
    obtain ⟨k', n, hcomes', hrow⟩ | ⟨s', proc'', k', he⟩ := h.closed key hsealed
    · obtain ⟨row, hrow⟩ := isSome_iff_exists.mp hrow
      exact ⟨k', n, hcomes', isSome_of_eq_some (hstays n row hrow)⟩
    · cases he
      cases ho
  · rw [if_pos ho]
    exact hcalls

theorem inv_stream {k : Except ε o.Result → Workflow ε R}
    {proc proc' : Proc Eff Answer (Except Error o.Result × CtxState)}
    (h : Inv X ctx others p ⟨w, .inside o s proc k⟩) (ho : o.stream ≠ none)
    (happends : Appends ctx.workflowId s.seq o w w')
    (hcounts : Proc.Safe unconstrained proc'
      (fun r _ => r.2 = { s with seq := s.seq + o.advance r.1 }) ())
    (hsafe : Proc.Safe (appending X ctx.workflowId s.seq o) proc'
      (fun r w' => (∃ v, r.1 = .ok v) ∧ (log w'.store ctx.workflowId s.seq).isSome) w') :
    Inv X ctx others p ⟨w', .inside o s proc' k⟩ := by
  obtain ⟨⟨hcomes, hs, hpast⟩, -, -⟩ := h.running
  have hstays (i : Int) (row : StepRow) (hrow : log w.store ctx.workflowId i = some row) :
      log w'.store ctx.workflowId i = some row := by
    by_cases hi : i = s.seq
    · subst hi
      exact happends.stays row hrow
    · rw [happends.off i hi]
      exact hrow
  refine ⟨h.sound.step hstays (fun {o' k' n row} hcomes' ho' hrow hnone => ?_) happends.live,
    fun key hsealed => ?_, ⟨hcomes, hs, hpast.stays hstays⟩, hcounts, ?_⟩
  · by_cases hn : n = s.seq
    · subst hn
      obtain ⟨heq, -⟩ | hnext | hnext := hcomes.trichotomy hcomes'
      · cases heq
        exact ⟨happends.row row hrow hnone, hpast⟩
      · have hle := hnext.le
        rw [width_of_stream ho] at hle
        omega
      · have hle := hnext.le
        rw [width_of_stream ho'] at hle
        omega
    · rw [happends.off n hn, hnone] at hrow
      cases hrow
  · obtain hsealed | rfl := happends.closes key hsealed
    · obtain ⟨k', n, hcomes', hrow⟩ | ⟨s', proc'', k', he⟩ := h.closed key hsealed
      · obtain ⟨row, hrow⟩ := isSome_iff_exists.mp hrow
        exact .inl ⟨k', n, hcomes', isSome_of_eq_some (hstays n row hrow)⟩
      · cases he
        exact .inr ⟨_, _, _, rfl⟩
    · exact .inr ⟨_, _, _, rfl⟩
  · rw [if_neg ho]
    exact hsafe

variable {k : Except ε o.Result → Workflow ε R}

/-- **A step inside an operation.** -/
theorem inv_inside {proc proc' : Proc Eff Answer (Except Error o.Result × CtxState)}
    {e : Option (Proc.Event Eff Answer (World Inner))}
    (h : Inv X ctx others p ⟨w, .inside o s proc k⟩)
    (hstep : Proc.Step (provider X).handle proc w e proc' w') :
    Inv X ctx others p ⟨w', .inside o s proc' k⟩ := by
  obtain ⟨-, hcounts, hspec⟩ := h.running
  obtain ⟨e', hfree⟩ := step_unconstrained hstep
  have hcounts' := (Proc.wp_step (fun _ => trivial) hcounts hfree).2
  by_cases ho : o.stream = none
  · rw [if_pos ho] at hspec
    obtain ⟨hlocal, hcalls⟩ := hspec.step hstep
    refine inv_other h ho ?_ hcounts' hcalls
    cases hstep with
    | call hr => exact changes_of_local (hlocal _ rfl) hr
    | unfold => exact ⟨.inl rfl, rfl, fun h => h⟩
  · rw [if_neg ho] at hspec
    obtain ⟨hguar, hsafe⟩ := Proc.wp_step Apart.refl hspec hstep
    refine inv_stream h ho ?_ hcounts' hsafe
    cases hstep with
    | call hr => exact hguar _ rfl
    | unfold => exact .refl _

/-- An operation that answers as it does moves the counter by its sequence numbers. -/
theorem advance_eq (h : o.stream = none → r.mapError view = answered others n o) :
    o.advance r = o.width := by
  cases o with
  | patch name =>
    replace h : r.mapError view = .ok true := h rfl
    cases r with
    | error e => cases h
    | ok v =>
      cases h
      rfl
  | _ => rfl

theorem answered_of_ok (ho : o.stream ≠ none) {v : o.Result} (h : r = .ok v) :
    r.mapError view = answered others n o := by
  subst h
  cases o with
  | writeStream | closeStream => rfl
  | _ => exact absurd rfl ho

theorem stream_returned {s' : CtxState} (h : Inv X ctx others p ⟨w, .inside o s (.ret (r, s')) k⟩)
    (ho : o.stream ≠ none) : (∃ v, r = .ok v) ∧
      (log w.store ctx.workflowId s.seq).isSome ∧ s' = { s with seq := s.seq + 1 } := by
  obtain ⟨-, ⟨_, -, hcounts⟩, hspec⟩ := h.running
  rw [if_neg ho] at hspec
  obtain ⟨w₀, hw₀, hok, hrow⟩ := hspec
  refine ⟨hok, by rw [hw₀.log]; exact hrow, ?_⟩
  have hwidth : (o.advance r : Int) = 1 := by
    cases o with
    | writeStream | closeStream => rfl
    | _ => exact absurd rfl ho
  rw [← hwidth]
  exact hcounts

/-- **An operation returns**, and the program goes on along its course. -/
theorem inv_returned {s' : CtxState} (h : Inv X ctx others p ⟨w, .inside o s (.ret (r, s')) k⟩)
    (hanswers : o.stream = none → r.mapError view = answered others s.seq o) :
    Inv X ctx others p ⟨w, .at (k (r.mapError view)) s'⟩ := by
  obtain ⟨⟨hcomes, hs, hpast⟩, ⟨_, -, hcounts⟩, -⟩ := h.running
  have hanswer : r.mapError view = answered others s.seq o := by
    by_cases ho : o.stream = none
    · exact hanswers ho
    · obtain ⟨⟨v, hv⟩, -⟩ := stream_returned h ho
      exact answered_of_ok ho hv
  replace hcounts : s' = { s with seq := s.seq + o.width } := by
    rw [← advance_eq fun _ => hanswer]
    exact hcounts
  refine ⟨h.sound, fun key hsealed => .inl ?_, ?_⟩
  · obtain hclose | ⟨_, _, _, he⟩ := h.closed key hsealed
    · exact hclose
    · cases he
      exact ⟨_, _, hcomes, (stream_returned h (by simp [Op.stream])).2.1⟩
  · rw [hanswer, hcounts]
    refine ⟨hcomes.snoc rfl, hs, fun o' k' n hcomes' ho' hn => ?_⟩
    by_cases hlt : n < s.seq
    · exact hpast o' k' n hcomes' ho' hlt
    · replace hn : n < s.seq + o.width := hn
      by_cases ho : o.stream = none
      · have hoff := hcomes.off hcomes' ho ho'
        omega
      · rw [width_of_stream ho] at hn
        obtain rfl : n = s.seq := by omega
        exact (stream_returned h ho).2.1

theorem inv_fresh {w₀ : World Inner} (hfresh : NotBegun ctx.workflowId w₀) :
    Inv X ctx others p ⟨w₀, .at p {}⟩ := by
  refine ⟨⟨hfresh.live, fun {o k n row} _ _ hrow => ?_, fun {o k n} _ _ hrow => ?_⟩,
    fun key hsealed => ?_, .nil, rfl, fun o k n hcomes _ hn => ?_⟩
  · rw [hfresh.log] at hrow
    cases hrow
  · rw [hfresh.log] at hrow
    cases hrow
  · rw [hfresh.streams] at hsealed
    cases hsealed
  · exact absurd hcomes.le (not_le.mpr hn)

variable [Serde DateTime]

theorem inv_begin (hp : ClosesOnce others p) (h : Inv X ctx others p ⟨w, .at (.op o k) s⟩) :
    Inv X ctx others p ⟨w, .inside o s (o.run (provider X) ctx s) k⟩ := by
  obtain ⟨hcomes, hs, hpast⟩ := h.running
  refine ⟨h.sound, fun key hsealed => .inl ?_, ⟨hcomes, hs, hpast⟩, ⟨(), trivial, ?_⟩, ?_⟩
  · obtain hclose | ⟨s', proc, k', he⟩ := h.closed key hsealed
    · exact hclose
    · cases he
  · exact counts_op hs fun _ _ => trivial
  · split
    · next ho => exact calls_local ho s
    · next ho =>
        obtain ⟨key, hkey⟩ := ne_none_iff_exists'.mp ho
        refine ⟨w, .refl w, spec_stream hkey rfl ?_ ?_⟩
        · rintro T _ value rfl
          exact hp.writable hcomes
        · exact h.sound.ready hp h.closed (fun _ _ _ _ he => by cases he) hcomes hkey

/-- **Every step keeps the invariant.** -/
theorem inv_step (hp : ClosesOnce others p) {c c' : Single ε R (provider X).State}
    {l : Label R (provider X).State}
    (hs : Single.Step (provider X) ctx view p (Apart ctx.workflowId) c l c')
    (hok : Whole ctx.workflowId view others c l c') (h : Inv X ctx others p c) :
    Inv X ctx others p c' := by
  cases hs with
  | restart => exact inv_restart h hok
  | env hw => exact inv_env h hw
  | exec hexec =>
    cases hexec with
    | begin => exact inv_begin hp h
    | inside hstep => exact inv_inside h hstep
    | returned => exact inv_returned h hok
    | finish =>
      refine ⟨h.sound, fun key hsealed => .inl ?_, h.running.1.result_eq.symm⟩
      obtain hclose | ⟨_, _, _, he⟩ := h.closed key hsealed
      · exact hclose
      · cases he

/-! ## Getting through -/

omit [Serde DateTime] in
theorem straight_replayOrGuard {T : Type} [Serde T] {expected : String} :
    (replayOrGuard ctx T n expected).Straight fun e => ∃ c, e = .provider c := by
  refine straight_bind (straight_ask ⟨_, rfl⟩) fun found => ?_
  cases found with
  | some rec =>
    dsimp only
    split
    · exact fun _ => trivial
    · exact straight_bind (fun _ => trivial) fun _ _ => trivial
  | none =>
    refine straight_bind (straight_ask ⟨_, rfl⟩) fun row => ?_
    cases row with
    | some status =>
      dsimp only
      split
      · exact fun _ => trivial
      · exact fun _ => trivial
    | none => exact fun _ => trivial

/-- An operation on a stream makes a few calls of the backend. -/
theorem straight_stream (ho : o.stream ≠ none) :
    (o.run (provider X) ctx).Straight fun e => ∃ c, e = .provider c := by
  have hdone {name : String} {work : Int → Verb Unit}
      (h : ∀ seq, (work seq).Straight fun e => ∃ c, e = .provider c) :
      (nextSeq >>= fun seq => replayOrGuard ctx Value seq name >>= fun
        | some _ => pure ()
        | none => work seq).Straight fun e => ∃ c, e = .provider c := by
    refine straight_bind (fun _ => trivial) fun seq =>
      straight_bind straight_replayOrGuard fun r => ?_
    cases r with
    | some _ => exact fun _ => trivial
    | none => exact h seq
  cases o with
  | writeStream T key value =>
    exact hdone fun _ => straight_bind (fun _ => trivial) fun _ =>
      straight_bind (straight_ask ⟨_, rfl⟩) fun _ =>
        straight_bind (straight_ask ⟨_, rfl⟩) fun _ _ => trivial
  | closeStream key =>
    exact hdone fun _ => straight_bind (straight_ask ⟨_, rfl⟩) fun _ =>
      straight_bind (straight_ask ⟨_, rfl⟩) fun _ _ => trivial
  | _ => exact absurd rfl ho

omit [Serde DateTime] in
theorem inv_runs {k : Except ε o.Result → Workflow ε R}
    {proc : Proc Eff Answer (Except Error o.Result × CtxState)}
    {es : List (Proc.Event Eff Answer (World Inner))} {a : Except Error o.Result × CtxState}
    (hr : Proc.Runs (provider X).handle (fun _ _ => False) proc w es a w') :
    Inv X ctx others p ⟨w, .inside o s proc k⟩ →
      Inv X ctx others p ⟨w', .inside o s (.ret a) k⟩ := by
  induction hr with
  | ret => exact fun h => h
  | call hr _ ih => exact fun h => ih (inv_inside h (.call hr))
  | unfold _ ih => exact fun h => ih (inv_inside h .unfold)
  | env h => exact h.elim

/-- **An execution gets through an operation on a stream.** -/
theorem proceeds_stream (hp : ClosesOnce others p) (ho : o.stream ≠ none)
    (h : Inv X ctx others p ⟨w, .at (.op o k) s⟩) :
    ∃ w' v, Single.Proceeds (provider X) ctx view ⟨w, .at (.op o k) s⟩
      ⟨w', .at (k (.ok v)) { s with seq := s.seq + 1 }⟩ := by
  have htotal (e : Eff) (he : ∃ c, e = .provider c) (w : World Inner) :
      ∃ r w', (provider X).handle e w r w' := by
    obtain ⟨c, rfl⟩ := he
    exact ⟨_, _, told⟩
  obtain ⟨es, ⟨r, s'⟩, w', hruns⟩ : ∃ es a w', Proc.Runs (provider X).handle (fun _ _ => False)
      (o.run (provider X) ctx s) w es a w' := (straight_stream ho s).runs htotal w
  have hend := inv_runs hruns (inv_begin hp h)
  obtain ⟨⟨v, rfl⟩, -, rfl⟩ := stream_returned hend ho
  exact ⟨w', v, .head ⟨_, .begin⟩ ((Single.Proceeds.inside hruns).tail ⟨_, .returned⟩)⟩

/-- **Closing survives crashes**, as long as none tears a close: no operation on a stream returns an
error, an execution that comes to one gets through it, and the workflow ends with the result of its
course. -/
theorem survives_crashes (hp : ClosesOnce others p) {w₀ : World Inner}
    (hfresh : NotBegun ctx.workflowId w₀) {c : Single ε R Inner}
    (hr : Single.ReachableBy (provider X) ctx view p (Apart ctx.workflowId)
      (Whole ctx.workflowId view others) w₀ c) :
    (∀ o n r c', Single.Step (provider X) ctx view p (Apart ctx.workflowId) c (.returned o n r) c' →
      o.stream ≠ none → ∃ v, r = .ok v) ∧
    (∀ o k s, c.exec = .at (.op o k) s → o.stream ≠ none →
      ∃ w' v, Single.Proceeds (provider X) ctx view c
        ⟨w', .at (k (.ok v)) { s with seq := s.seq + 1 }⟩) ∧
    ∀ r c', Single.Step (provider X) ctx view p (Apart ctx.workflowId) c (.finish r) c' →
      r = p.result Op.width (answered others) 0 := by
  have hinv : Inv X ctx others p c :=
    hr.invariant (inv_fresh hfresh) fun _ _ _ hstep hok h => inv_step hp hstep hok h
  obtain ⟨w, e⟩ := c
  refine ⟨?_, ?_, ?_⟩
  · rintro o n r c' (⟨⟨⟩⟩ | _ | _) ho
    exact (stream_returned hinv ho).1
  · rintro o k s rfl ho
    exact proceeds_stream hp ho hinv
  · rintro r c' (⟨⟨⟩⟩ | _ | _)
    exact hinv.running.1.result_eq.symm

end

/-! ## Two reports -/

section

attribute [local instance] serdeNanos

/-- There are no other operations. -/
def noOthers (_ : Int) (o : Op) : Except String o.Result := .error ""

/-- A value is written and the stream is closed. -/
def report : Workflow String (Except String Unit) :=
  .op (.writeStream Nat "out" 7) fun _ => .op (.closeStream "out") .done

theorem closesOnce_report : ClosesOnce noOthers report where
  writable h := by
    cases h with
    | nil => exact ⟨_, rfl⟩
    | cons h => cases h with
      | cons h => cases h
  order h h' := by
    cases h with
    | cons h => cases h with
      | nil => cases h'
      | cons h => cases h

theorem fresh_empty : NotBegun "wf" ⟨{}, ⟨0⟩⟩ := ⟨fun _ => rfl, fun _ => rfl, nofun⟩

/-- The execution is lost between the value and its row.  The next one writes the value again, and
gets through the close. -/
theorem survives_crashes_report : ∃ w,
    Single.ReachableBy (provider noText) wfContext Error.message report (Apart "wf")
      (Whole "wf" Error.message noOthers) ⟨{}, ⟨0⟩⟩
      ⟨w, .at (.op (.closeStream "out") .done) { seq := 1 }⟩ ∧
    streamOf w.store "wf" "out" = [some (.number (.int 7)), some (.number (.int 7))] ∧
    ∃ w' v, Single.Proceeds (provider noText) wfContext Error.message
      ⟨w, .at (.op (.closeStream "out") .done) { seq := 1 }⟩
      ⟨w', .at (.done (.ok v)) { seq := 2 }⟩ := by
  have hstart : Single.ReachableBy (provider noText) wfContext Error.message report (Apart "wf")
      (Whole "wf" Error.message noOthers) ⟨{}, ⟨0⟩⟩ ⟨⟨{}, ⟨0⟩⟩, .at report {}⟩ := .refl
  have hlost := hstart.exec .begin trivial
    |>.exec (.inside (.call told)) trivial |>.exec (.inside (.call told)) trivial
    |>.exec (.inside (.call told)) trivial |>.restart (fun ⟨_, _, _, _, h, _⟩ => by cases h)
  have hwritten := hlost.exec .begin trivial
    |>.exec (.inside (.call told)) trivial |>.exec (.inside (.call told)) trivial
    |>.exec (.inside (.call told)) trivial |>.exec (.inside (.call told)) trivial
    |>.exec .returned nofun
  obtain ⟨-, hthrough, -⟩ := survives_crashes closesOnce_report fresh_empty hwritten
  exact ⟨_, hwritten, rfl, hthrough _ _ _ rfl (by simp [Op.stream])⟩

/-- **A stream is closed twice**: the execution is lost between the seal and its row, and the next
one is told that the stream is closed. -/
theorem close_torn : ClosesOnce noOthers report ∧ NotBegun "wf" ⟨{}, ⟨0⟩⟩ ∧ ∃ c c',
    Single.Reachable (provider noText) wfContext Error.message report (Apart "wf") ⟨{}, ⟨0⟩⟩ c ∧
    Single.Step (provider noText) wfContext Error.message report (Apart "wf") c
      (.returned (.closeStream "out") 1 (.error (.app "stream `out` is already closed"))) c' := by
  have hstart : Single.Reachable (provider noText) wfContext Error.message report (Apart "wf")
      ⟨{}, ⟨0⟩⟩ ⟨⟨{}, ⟨0⟩⟩, .at report {}⟩ := .start
  have htorn := hstart.exec .begin
    |>.exec (.inside (.call told)) |>.exec (.inside (.call told)) |>.exec (.inside (.call told))
    |>.exec (.inside (.call told)) |>.exec .returned |>.exec .begin
    |>.exec (.inside (.call told)) |>.exec (.inside (.call told)) |>.exec (.inside (.call told))
    |>.restart
  have hagain := htorn.exec .begin |>.exec (.inside (.call told)) |>.exec .returned
    |>.exec .begin |>.exec (.inside (.call told)) |>.exec (.inside (.call told))
    |>.exec (.inside (.call told))
  exact ⟨closesOnce_report, fresh_empty, _, _, hagain, .exec .returned⟩

end

end Durare.Closing
