import Durare.Context.Executions
import Durare.Context.Journal
import Durare.Machinery.History

/-!
# Context/Racing — racing executions of one workflow and their messages

Any number of executions of one workflow run the same program under the same id, over either
backend; each is lost or begun at any point, and messages arrive all the time.

`recv` looks for its row first and consumes a message afterwards, and between the two another
execution can record the row.  The claim then **marks a second message consumed, and its row is
dropped** — in memory the caller gets the recorded message instead of the claimed one, over SQLite
the claimed one.  A `recv` that times out at that point returns `None` although a message is
recorded.

* `Uncontended` — each claim and each timeout finds no row, and no claimed message is null.
* `keeps_inv` — as long as the steps are uncontended, every message is consumed exactly once.
* `nothing_lost` — contended or not, the rows and the messages are there to stay.
-/

namespace Durare

open List Option

open Verb

variable {ε R : Type}

/-! ## The system -/

/-- Executions of one workflow under one id. -/
def racing [Serde DateTime] (P : Provider) (ctx : DurableContext) (view : Error → ε)
    (p : Workflow ε R) (others : World P.State → World P.State → Prop) :
    Threads (Exec ε R) (World P.State) (Label R P.State) where
  step e w l e' w' new := Exec.Step P ctx view e w l e' w' ∧ new = []
  start _ e := e = .at p {}
  env := others

section

variable {P : Provider} (J : Journal P)

/-- The rest of the system: it leaves the rows of this workflow and its messages alone, and sends
new ones. -/
structure Others (id : String) (w w' : World P.State) : Prop where
  rows : ∀ seq, J.row w'.store id seq = J.row w.store id seq
  stay : ∀ {i : Nat} {letter : Letter J.Body}, (J.letters w.store)[i]? = some letter →
    letter.destination = id → (J.letters w'.store)[i]? = some letter
  arrive : ∀ {i : Nat} {letter : Letter J.Body}, (J.letters w'.store)[i]? = some letter →
    letter.destination = id → (J.letters w.store)[i]? = some letter ∨ letter.consumed = false

variable {J} in
/-- **Messages may be sent at any time.** -/
theorem Others.of_send (hJ : J.Lawful) {id dest topic : String} {message : Value}
    {key : Option String} {w w' : World P.State} {r : Except Error Unit}
    (h : P.handle (.provider (.insertNotification dest topic message key)) w r w') :
    Others J id w w' := by
  obtain ⟨hlog, hmail⟩ := hJ.send h
  refine ⟨fun seq => by rw [Journal.row, Journal.row, hlog], ?_, ?_⟩
  · intro i letter hletter _
    rcases hmail with hmail | ⟨new, hmail, -⟩
    · rw [hmail, hletter]
    · rw [hmail, getElem?_append_left (List.getElem?_eq_some_iff.mp hletter).1, hletter]
  · intro i letter hletter _
    rcases hmail with hmail | ⟨new, hmail, hnew⟩
    · rw [hmail] at hletter
      exact .inl hletter
    · rw [hmail, getElem?_append] at hletter
      split at hletter
      · exact .inl hletter
      · obtain rfl := mem_singleton.mp (mem_of_getElem? hletter)
        exact .inr hnew

/-- The step marks the message at place `i` consumed on behalf of `seq`. -/
def Label.Claims (id : String) (seq : Int) (i : Nat) (l : Label R P.State) : Prop :=
  ∃ n ev topic name letter, l = .inside n (some ev) ∧
    ev.call = .provider (.consumeNotification id topic seq name) ∧
    J.Marks i letter ev.before.store ev.after.store

/-- The message at place `i` has been marked consumed on behalf of `seq`. -/
def Claimed (id : String) (past : List (Label R P.State)) (seq : Int) (i : Nat) : Prop :=
  ∃ l ∈ past, Label.Claims J id seq i l

/-- What a row of `recv` stands for at `T`. -/
def ReadsAs (T : Type) [Serde T] (row : J.Row) (v : Option T) : Prop :=
  ∃ out, J.outcome row = .ok (some out) ∧ outcomeValue (Option T) out = .ok v

/-- The messages of a workflow are consumed exactly once. -/
structure ExactlyOnce (id : String) (w : Logged (World P.State) (Label R P.State)) : Prop where
  /-- at most one message is marked consumed on behalf of a sequence number -/
  once : ∀ seq i j, Claimed J id w.past seq i → Claimed J id w.past seq j → i = j
  /-- a message marked consumed is the recorded output of the `recv` it was consumed for -/
  recorded : ∀ i letter, (J.letters w.world.store)[i]? = some letter → letter.destination = id →
    letter.consumed = true → ∃ seq row, Claimed J id w.past seq i ∧
      J.row w.world.store id seq = some row ∧ J.name row = "DBOS.recv" ∧
      J.output row = some letter.body
  /-- a `recv` returned what is recorded at its sequence number -/
  returned : ∀ (T : Type) [Serde T] topic timeout seq v,
    Label.returned (.recv T topic timeout) seq (.ok v) ∈ w.past →
      ∃ row, J.row w.world.store id seq = some row ∧ ReadsAs J T row v

/-- The operation is a `recv`. -/
def Op.Receives : Op → Prop
  | @Op.recv _ _ _ _ => True
  | _ => False

/-- A claim finds no row and its message is not a null; the timeout of a `recv` at `seq` finds no
row. -/
def Unclaimed (o : Op) (seq : Int) (g g' : P.State) : Eff → Prop
  | .provider (.consumeNotification id _ n _) => ∀ i letter, J.Marks i letter g g' →
      J.row g id n = none ∧ J.read letter.body ≠ .ok .null
  | .provider (.recordStepResult id n _ _ _ _) => o.Receives → n = seq → J.row g id n = none
  | _ => True

/-- Every call an execution makes in this step is fresh. -/
def Uncontended (_ : Pool (Exec ε R) (Logged (World P.State) (Label R P.State)))
    (e : Pool.Happens (Exec ε R) (Label R P.State))
    (_ : Pool (Exec ε R) (Logged (World P.State) (Label R P.State))) : Prop :=
  match e with
  | .ran (.inside o s _ _) (.inside _ (some ev)) =>
    Unclaimed J o s.seq ev.before.store ev.after.store ev.call
  | _ => True

/-! ## What `recv` returns -/

/-- The judgement of the operation `o` at slot `n` when its calls are fresh and rows stay. -/
def fresh (id : String) (o : Op) (n : Int) : Proc.Judge Eff Answer (World P.State) where
  handle e w r w' := P.handle e w r w' ∧ Unclaimed J o n w.store w'.store e
  rely w w' := ∀ seq row, J.row w.store id seq = some row → J.row w'.store id seq = some row
  guar e _ _ _ := e.Durable

/-- A `recv` that returns a value has it in its row. -/
def Reports (id : String) (n : Int) : (o : Op) → Except Error o.Result → World P.State → Prop
  | @Op.recv T _ _ _, r, w => ∀ v, r = .ok v → ∃ row, J.row w.store id n = some row ∧
    ReadsAs J T row v
  | _, _, _ => True

variable {J : Journal P} {ctx : DurableContext} {o : Op} {n m : Int} {s : CtxState}
  {w : World P.State} {T : Type} [Serde T] {topic : String} {timeout : Duration}

theorem wp_anything {α : Type} {x : Verb α} (h : x.Calls Eff.Durable) :
    wp (fresh J ctx.workflowId o n) x (fun _ _ _ => True) s w :=
  (h s).wp (fun _ he _ _ _ _ => he) w

theorem wp_replayed (hJ : J.Lawful) {name : String} {f : Option (Option T) → Verb (Option T)}
    {Q : Except Error (Option T) → World P.State → Prop} (herror : ∀ e w, Q (.error e) w)
    (hfound : ∀ w' v row, J.row w'.store ctx.workflowId n = some row → ReadsAs J T row v →
      wp (fresh J ctx.workflowId o n) (f (some v)) (fun r _ => Q r) s w')
    (hnone : ∀ w', wp (fresh J ctx.workflowId o n) (f none) (fun r _ => Q r) s w') :
    wp (fresh J ctx.workflowId o n) (replayOrGuard ctx (Option T) n name >>= f)
      (fun r _ => Q r) s w := by
  refine wp_replayOrGuard fun w₁ _ r w₂ hr => ⟨trivial, ?_⟩
  obtain ⟨rfl, hr⟩ := hJ.lookup hr.1
  cases r with
  | error e => exact herror e w₂
  | ok found =>
    cases found with
    | none =>
      refine wp_unlessCancelled fun w₃ _ r w₄ _ => ⟨trivial, ?_⟩
      cases r with
      | error e => exact herror e w₄
      | ok found =>
        dsimp only
        split
        · exact herror _ w₄
        · exact hnone w₄
    | some rec =>
      dsimp only
      split
      · obtain ⟨row, hrow, hout, -⟩ := Journal.row_of_lookup hr
        cases hv : outcomeValue (Option T) rec.outcome with
        | error e => exact herror e w₂
        | ok v => exact hfound w₂ v row hrow ⟨_, hout, hv⟩
      · exact herror _ w₂

/-- A message that was claimed where no row was is what the new row stands for. -/
theorem stands_claimed (hJ : J.Lawful) {seq : Int} {name : String} {w' : World P.State}
    {msg : Value}
    (h : (fresh J ctx.workflowId o n).handle
      (.provider (.consumeNotification ctx.workflowId topic seq name)) w (.ok (some msg)) w') :
    ∃ row, J.row w'.store ctx.workflowId seq = some row ∧
      ∀ v, (Serde.fromValue msg : Except String T) = .ok v → ReadsAs J T row (some v) := by
  obtain ⟨i, letter, hclaim, hread⟩ := hJ.consume h.1
  obtain ⟨hnone, hnull⟩ := h.2 i letter hclaim.marks
  obtain ⟨row, hrow, -, -, hout⟩ := hclaim.row hnone
  rw [hread hnone] at hout hnull
  have hmsg : msg ≠ .null := fun h => hnull (by rw [h])
  refine ⟨row, hrow, fun v hv => ⟨.output msg, hout, ?_⟩⟩
  simp only [outcomeValue, StepOutcome.intoValueResult, Serde.fromValue_option_of_ne_null hmsg, hv,
    Except.map, Except.mapError]

variable [Serde DateTime]

theorem spec_recv (hJ : J.Lawful) (hs : s.seq = n) :
    wp (fresh J ctx.workflowId (.recv T topic timeout) n) (recv P ctx T topic timeout)
      (fun r _ => Reports J ctx.workflowId n (.recv T topic timeout) r) s w := by
  subst hs
  have herror : ∀ e w, Reports J ctx.workflowId s.seq (.recv T topic timeout) (.error e) w :=
    fun e w v h => by cases h
  refine wp_nextSeq (wp_nextSeq (wp_replayed hJ herror ?_ fun w' => ?_))
  · rintro w' v row hrow hv _ ⟨rfl⟩
    exact ⟨row, hrow, hv⟩
  · refine wp_loop (fun _ _ _ => True) trivial fun deadline s' w _ => ?_
    refine wp_ask fun w₁ _ r w₂ hr => ⟨rfl, ?_⟩
    cases r with
    | error e => exact herror e w₂
    | ok found =>
      cases found with
      | some msg =>
        obtain ⟨row, hrow, hstands⟩ := stands_claimed (T := T) hJ hr
        rw [after_ok]
        refine wp_bind ?_
        rw [fromValue, wp_ofExcept]
        cases hv : (Serde.fromValue msg : Except String T) with
        | error e => exact herror _ w₂
        | ok v =>
          rintro _ ⟨rfl⟩
          exact ⟨row, hrow, hstands v hv⟩
      | none =>
        rw [after_ok]
        refine wp_bind (wp_mono ?_
          (wp_anything (steady_deadlineOf trivial trivial fun _ => trivial).calls))
        rintro d s'' w₃ -
        cases d with
        | error e => exact herror e w₃
        | ok d =>
          rw [after_ok]
          refine wp_perform fun w₄ _ now w₅ _ => ⟨trivial, ?_⟩
          split
          · refine wp_ask fun w₆ _ r w₇ hr => ⟨trivial, ?_⟩
            cases r with
            | error e => exact herror e w₇
            | ok out =>
              obtain ⟨row, hlog, hout⟩ := hJ.recordNull hr.1
              have hnone := hr.2 trivial rfl
              rintro _ ⟨rfl⟩
              refine ⟨row, ?_, .output .null, hout, rfl⟩
              rw [Journal.row] at hnone ⊢
              rw [hlog, AList.lookup_insertNew_self, hnone, getD_none]
          · exact wp_perform fun w₆ _ _ w₇ _ => ⟨trivial, trivial⟩

/-- **A `recv` whose calls are fresh reports its row**, and no operation does anything else. -/
theorem spec_op (hJ : J.Lawful) (o : Op) (hs : s.seq = n) :
    wp (fresh J ctx.workflowId o n) (o.run P ctx)
      (fun r _ => Reports J ctx.workflowId n o r) s w := by
  have hcalls := calls_op (fun seq started opts => hJ.statements ctx.workflowId seq started opts) o
  cases o with
  | recv T topic timeout => exact spec_recv hJ hs
  | _ => exact wp_mono (fun _ _ _ _ => trivial) (wp_anything hcalls)

end

/-! ## Exactly once -/

section

variable {P : Provider} (J : Journal P) (ctx : DurableContext)

/-- An operation under way is safe. -/
def Running : Exec ε R → World P.State → Prop
  | .inside o s p _, w => Proc.Safe (fresh J ctx.workflowId o s.seq) p
      (fun r => Reports J ctx.workflowId s.seq o r.1) w
  | _, _ => True

/-- Messages are consumed exactly once, and only for a row. -/
structure Inv (w : Logged (World P.State) (Label R P.State)) : Prop
    extends ExactlyOnce J ctx.workflowId w where
  claimed : ∀ seq i, Claimed J ctx.workflowId w.past seq i →
    (J.row w.world.store ctx.workflowId seq).isSome

variable {J : Journal P} {ctx : DurableContext} {past : List (Label R P.State)}
  {w w' : World P.State} {id : String}

theorem Reports.stays {o : Op} {n : Int} {r : Except Error o.Result}
    (h : Reports J id n o r w)
    (hstay : ∀ seq row, J.row w.store id seq = some row → J.row w'.store id seq = some row) :
    Reports J id n o r w' := by
  cases o with
  | recv T topic timeout =>
    intro v hv
    obtain ⟨row, hrow, hstands⟩ := h v hv
    exact ⟨row, hstay n row hrow, hstands⟩
  | _ => trivial

theorem Running.stays {e : Exec ε R} (h : Running J ctx e w)
    (hstay : ∀ seq row, J.row w.store ctx.workflowId seq = some row →
      J.row w'.store ctx.workflowId seq = some row) : Running J ctx e w' := by
  cases e with
  | inside o s p k =>
    exact Proc.Safe.env h (fun hab hbc seq row hrow => hbc seq row (hab seq row hrow)) hstay
  | «at» => trivial
  | finished => trivial

/-- What a step adds to the invariant: rows stay, every message it marks is recorded where no row
was, and what it returns is recorded. -/
structure Adds (J : Journal P) (id : String) (new : Option (Label R P.State))
    (w w' : World P.State) : Prop where
  stay : ∀ seq row, J.row w.store id seq = some row → J.row w'.store id seq = some row
  marked : ∀ i letter, (J.letters w'.store)[i]? = some letter → letter.destination = id →
    letter.consumed = true → (J.letters w.store)[i]? = some letter ∨
      ∃ seq row, (∃ l ∈ new, Label.Claims J id seq i l) ∧ J.row w'.store id seq = some row ∧
        J.name row = "DBOS.recv" ∧ J.output row = some letter.body
  claims : ∀ l ∈ new, ∀ seq i, Label.Claims J id seq i l → J.row w.store id seq = none ∧
    (J.row w'.store id seq).isSome ∧ ∀ j, Label.Claims J id seq j l → i = j
  returns : ∀ (T : Type) [Serde T] topic timeout seq v,
    Label.returned (.recv T topic timeout) seq (.ok v) ∈ new →
      ∃ row, J.row w'.store id seq = some row ∧ ReadsAs J T row v

variable {new : Option (Label R P.State)}

theorem claimed_append {seq : Int} {i : Nat} :
    Claimed J id (new.toList ++ past) seq i ↔
      (∃ l ∈ new, Label.Claims J id seq i l) ∨ Claimed J id past seq i := by
  simp only [Claimed, mem_append, mem_toList, mem_def, or_and_right, exists_or]

/-- **A step that adds only recorded messages keeps the invariant.** -/
theorem Inv.adds (h : Inv J ctx ⟨w, past⟩) (hadds : Adds J ctx.workflowId new w w') :
    Inv J ctx ⟨w', new.toList ++ past⟩ where
  once seq i j hi hj := by
    rw [claimed_append] at hi hj
    rcases hi with ⟨l, hl, hi⟩ | hi <;> rcases hj with ⟨l', hl', hj⟩ | hj
    · obtain rfl : l = l' := Option.some.inj (hl.symm.trans hl')
      exact (hadds.claims l hl seq i hi).2.2 j hj
    · have hsome := h.claimed seq j hj
      rw [(hadds.claims l hl seq i hi).1] at hsome
      cases hsome
    · have hsome := h.claimed seq i hi
      rw [(hadds.claims l' hl' seq j hj).1] at hsome
      cases hsome
    · exact h.once seq i j hi hj
  recorded i letter hletter hdest hconsumed := by
    rcases hadds.marked i letter hletter hdest hconsumed with hold | ⟨seq, row, hclaim, hrow⟩
    · obtain ⟨seq, row, hclaim, hrow, hname⟩ := h.recorded i letter hold hdest hconsumed
      exact ⟨seq, row, claimed_append.mpr (.inr hclaim), hadds.stay seq row hrow, hname⟩
    · exact ⟨seq, row, claimed_append.mpr (.inl hclaim), hrow⟩
  returned T _ topic timeout seq v hmem := by
    rcases mem_append.mp hmem with hnew | hold
    · exact hadds.returns T topic timeout seq v (mem_toList.mp hnew)
    · obtain ⟨row, hrow, hstands⟩ := h.returned T topic timeout seq v hold
      exact ⟨row, hadds.stay seq row hrow, hstands⟩
  claimed seq i hclaim := by
    rcases claimed_append.mp hclaim with ⟨l, hl, hi⟩ | hold
    · exact (hadds.claims l hl seq i hi).2.1
    · obtain ⟨row, hrow⟩ := isSome_iff_exists.mp (h.claimed seq i hold)
      rw [hadds.stay seq row hrow, isSome_some]

theorem Others.adds (h : Others J id w w') : Adds (R := R) J id none w w' where
  stay seq row hrow := by rw [h.rows, hrow]
  marked i letter hletter hdest hconsumed := by
    rcases h.arrive hletter hdest with hold | hnew
    · exact .inl hold
    · rw [hnew] at hconsumed
      cases hconsumed
  claims l hl := by cases hl
  returns T _ topic timeout seq v hmem := by cases hmem

variable {l : Label R P.State}

theorem adds_same (hclaims : ∀ n ev, l ≠ .inside n (some ev))
    (hreturns : ∀ (T : Type) [Serde T] topic timeout seq v,
      l = .returned (.recv T topic timeout) seq (.ok v) →
        ∃ row, J.row w.store id seq = some row ∧ ReadsAs J T row v) :
    Adds J id (some l) w w where
  stay seq row hrow := hrow
  marked i letter hletter _ _ := .inl hletter
  claims l' hl' seq i hclaim := by
    obtain ⟨n, ev, _, _, _, hl, -⟩ := hclaim
    exact absurd ((Option.some.inj hl').trans hl) (hclaims n ev)
  returns T _ topic timeout seq v hmem := hreturns T topic timeout seq v (Option.some.inj hmem)

theorem adds_call (hJ : J.Lawful) {o : Op} {n m : Int} {e : Eff} {r : Answer e} (he : e.Durable)
    (hr : P.handle e w r w') (hfresh : Unclaimed J o m w.store w'.store e) :
    Adds (R := R) J id (some (.inside n (some ⟨e, w, r, w'⟩))) w w' := by
  have hmove := hJ.move he hr
  refine ⟨fun seq row hrow => hmove.row_stays hrow, ?_, ?_, ?_⟩
  · intro i letter hletter hdest hconsumed
    cases hmove with
    | quiet _ hmail =>
      rw [hmail] at hletter
      exact .inl hletter
    | record _ _ _ hmail =>
      rw [hmail] at hletter
      exact .inl hletter
    | deliver new hnew _ hmail =>
      rw [hmail, getElem?_append] at hletter
      split at hletter
      · exact .inl hletter
      · obtain rfl := mem_singleton.mp (mem_of_getElem? hletter)
        rw [hnew] at hconsumed
        cases hconsumed
    | @claim id' topic seq name j old hcall h =>
      subst hcall
      rw [h.getElem?] at hletter
      split at hletter
      · next hij =>
          obtain rfl := hij
          cases hletter
          obtain rfl : id' = id := h.destination.symm.trans hdest
          obtain rfl : name = "DBOS.recv" := he
          obtain ⟨row, hrow, hname, hout, -⟩ := h.row (hfresh j old h.marks).1
          exact .inr ⟨seq, row, ⟨_, rfl, _, _, _, _, old, rfl, rfl, h.marks⟩, hrow, hname, hout⟩
      · exact .inl hletter
  · rintro l ⟨rfl⟩ seq i ⟨_, _, topic, name, letter, ⟨rfl, rfl⟩, hcall, hmarks⟩
    dsimp only at hcall hmarks
    subst hcall
    obtain ⟨_, _, _, _, hcall, hclaim⟩ := hmove.claim_of_marks hmarks
    cases hcall
    have hnone := (hfresh i letter hmarks).1
    obtain ⟨row, hrow, -⟩ := hclaim.row hnone
    refine ⟨hnone, by rw [hrow, isSome_some], ?_⟩
    rintro j ⟨_, _, _, _, other, ⟨rfl, rfl⟩, -, hother⟩
    by_contra hij
    exact hother.changed (by rw [hclaim.getElem?, if_neg hij])
  · intro T _ topic timeout seq v hmem
    cases hmem

variable [Serde DateTime] {view : Error → ε} {p : Workflow ε R}

/-- **One step of an execution**: it adds only recorded messages, and the operation under way stays
safe. -/
theorem exec_step (hJ : J.Lawful) {e e' : Exec ε R} (hs : Exec.Step P ctx view e w l e' w')
    (hrun : Running J ctx e w)
    (hfresh : ∀ o s q k n ev, e = .inside o s q k → l = .inside n (some ev) →
      Unclaimed J o s.seq ev.before.store ev.after.store ev.call) :
    Adds J ctx.workflowId (some l) w w' ∧ Running J ctx e' w' := by
  cases hs with
  | @begin o k s =>
    refine ⟨adds_same (fun _ _ h => ?_) fun _ _ _ _ _ _ h => ?_, w, fun _ _ h => h,
      spec_op hJ o rfl⟩
    · cases h
    · cases h
  | @inside o k s _ _ q q' ev h =>
    cases h with
    | @call c k' _ _ r hr =>
      have hcall := hfresh o s _ k _ _ rfl rfl
      obtain ⟨hdurable, hsafe⟩ := Proc.wp_step (fun _ _ _ h => h) hrun (.call ⟨hr, hcall⟩)
      exact ⟨adds_call hJ (hdurable _ rfl) hr hcall, hsafe⟩
    | unfold =>
      obtain ⟨-, hsafe⟩ := Proc.wp_step (fun _ _ _ h => h) hrun .unfold
      refine ⟨adds_same (fun _ _ h => ?_) fun _ _ _ _ _ _ h => ?_, hsafe⟩
      · cases h
      · cases h
  | @returned o k s s' _ r =>
    refine ⟨adds_same (fun _ _ h => by cases h) ?_, trivial⟩
    rintro T _ topic timeout seq v ⟨rfl, rfl, rfl⟩
    obtain ⟨w₀, hstay, hreports⟩ := hrun
    replace hreports : Reports J ctx.workflowId s.seq (.recv T topic timeout) (.ok v) w₀ := hreports
    exact hreports.stays hstay v rfl
  | finish =>
    refine ⟨adds_same (fun _ _ h => ?_) fun _ _ _ _ _ _ h => ?_, trivial⟩
    · cases h
    · cases h

theorem keeps_inv (hJ : J.Lawful) :
    Pool.Keeps (racing P ctx view p (Others J ctx.workflowId)).logged (Uncontended J) (Inv J ctx)
      (fun e w => Running J ctx e w.world) where
  start := by
    rintro e w rfl -
    trivial
  env := by
    rintro ⟨w, past⟩ ⟨w', past'⟩ ⟨hothers, hpast⟩ hinv
    obtain rfl : past' = past := hpast
    exact ⟨hinv.adds hothers.adds, fun e he => he.stays (hothers.adds (R := R)).stay⟩
  run := by
    rintro pre post new e e' ⟨w, past⟩ ⟨w', past'⟩ l ⟨⟨hs, rfl⟩, hpast⟩ hok hinv hrun
    obtain rfl : past' = l :: past := hpast
    obtain ⟨hadds, hrun'⟩ := exec_step hJ hs hrun fun o s q k n ev he hl => by
      subst he hl
      exact hok
    exact ⟨hinv.adds hadds, hrun', by simp, fun u _ hu => hu.stays hadds.stay⟩

end

/-- **Every message is consumed exactly once**, in every run in which each claim and each timeout
finds no row at its sequence number and no claimed message is null: however many executions race, on
either backend. -/
theorem recv_exactly_once [Serde DateTime] {b : Backend} {ctx : DurableContext} {view : Error → ε}
    {p : Workflow ε R} {w₀ : World b.provider.State}
    (hunread : ∀ (i : Nat) (letter : Letter b.journal.Body),
      (b.journal.letters w₀.store)[i]? = some letter →
      letter.destination = ctx.workflowId → letter.consumed = false)
    {c : Pool (Exec ε R) (Logged (World b.provider.State) (Label R b.provider.State))}
    (hr : Pool.Run (racing b.provider ctx view p (Others b.journal ctx.workflowId)).logged
      (Uncontended b.journal) ⟨⟨w₀, []⟩, []⟩ c) :
    ExactlyOnce b.journal ctx.workflowId c.world := by
  have hinit : Inv b.journal ctx (⟨w₀, []⟩ : Logged _ (Label R b.provider.State)) := by
    refine ⟨⟨?_, ?_, ?_⟩, ?_⟩
    · rintro seq i j ⟨l, hl, -⟩
      cases hl
    · intro i letter hletter hdest hconsumed
      rw [hunread i letter hletter hdest] at hconsumed
      cases hconsumed
    · intro T _ topic timeout seq v hmem
      cases hmem
    · rintro seq i ⟨l, hl, -⟩
      cases hl
  exact (hr.invariant (keeps_inv b.lawful) hinit (by simp)).1.toExactlyOnce

/-! ## What lasts -/

section

variable {P : Provider} (J : Journal P)

/-- The rows of the workflow and the messages to it are there, and what was consumed still is. -/
structure Lasts (id : String) (g g' : P.State) : Prop where
  rows : ∀ {seq row}, J.row g id seq = some row → J.row g' id seq = some row
  letters : ∀ {i : Nat} {letter : Letter J.Body}, (J.letters g)[i]? = some letter →
    letter.destination = id → ∃ k, (J.letters g')[i]? = some { letter with consumed := k } ∧
      (letter.consumed → k)

variable {J} {id : String} {g g' g'' : P.State}

theorem Lasts.of_mail (hrows : ∀ {seq row}, J.row g id seq = some row → J.row g' id seq = some row)
    (hmail : ∀ {i : Nat} {letter : Letter J.Body}, (J.letters g)[i]? = some letter →
      letter.destination = id → (J.letters g')[i]? = some letter) : Lasts J id g g' :=
  ⟨hrows, fun hletter hdest => ⟨_, hmail hletter hdest, fun h => h⟩⟩

theorem Lasts.refl : Lasts J id g g := .of_mail (fun h => h) fun h _ => h

theorem Lasts.trans (h : Lasts J id g g') (h' : Lasts J id g' g'') : Lasts J id g g'' where
  rows hrow := h'.rows (h.rows hrow)
  letters hletter hdest := by
    obtain ⟨k, hk, hkept⟩ := h.letters hletter hdest
    obtain ⟨k', hk', hkept'⟩ := h'.letters hk hdest
    exact ⟨k', hk', hkept' ∘ hkept⟩

theorem Journal.Move.lasts {e : Eff} (h : J.Move e g g') : Lasts J id g g' := by
  have hrows {seq row} : J.row g id seq = some row → J.row g' id seq = some row := h.row_stays
  cases h with
  | quiet _ hmail | record _ _ _ hmail => exact .of_mail hrows fun h _ => hmail ▸ h
  | deliver _ _ _ hmail =>
    refine .of_mail hrows fun h _ => ?_
    rw [hmail, getElem?_append_left (List.getElem?_eq_some_iff.mp h).1, h]
  | claim _ h =>
    refine ⟨hrows, fun {i letter} hletter _ => ?_⟩
    rw [h.getElem?]
    split
    · next hi =>
        subst hi
        cases h.before.symm.trans hletter
        exact ⟨true, rfl, fun _ => rfl⟩
    · exact ⟨_, hletter, fun h => h⟩

/-- The operation under way makes durable calls only. -/
def Exec.Durable : Exec ε R → Prop
  | .inside _ _ q _ => q.Calls Eff.Durable
  | _ => True

variable [Serde DateTime] {ctx : DurableContext} {view : Error → ε} {p : Workflow ε R}

theorem lasts_step (hJ : J.Lawful) {w w' : World P.State} {l : Label R P.State} {e e' : Exec ε R}
    (hs : Exec.Step P ctx view e w l e' w') (he : e.Durable) :
    Lasts J id w.store w'.store ∧ e'.Durable := by
  cases hs with
  | begin => exact ⟨.refl, calls_op (hJ.statements _) _ _⟩
  | inside h =>
    refine ⟨?_, (Proc.Calls.step he h).2⟩
    cases h with
    | call hr => exact (hJ.move he.1 hr).lasts
    | unfold => exact .refl
  | returned | finish => exact ⟨.refl, trivial⟩

theorem keeps_lasts (hJ : J.Lawful) (g : P.State) :
    Pool.Keeps (racing P ctx view p (Others J ctx.workflowId)).logged (fun _ _ _ => True)
      (fun w => Lasts J ctx.workflowId g w.world.store) (fun e _ => e.Durable) where
  start := by
    rintro e w rfl -
    trivial
  env h hlasts := ⟨hlasts.trans (.of_mail (h.1.rows _ ▸ ·) h.1.stay), fun _ ht => ht⟩
  run := by
    rintro pre post new e e' w w' l ⟨⟨hs, rfl⟩, -⟩ - hlasts he
    obtain ⟨hstep, he'⟩ := lasts_step hJ hs he
    exact ⟨hlasts.trans hstep, he', by simp, fun _ _ hu => hu⟩

/-- **Nothing recorded or sent is lost**, whatever races on either backend: from any state of a run
on, the rows of the workflow stay as they are, and so do the messages to it. -/
theorem nothing_lost {b : Backend} {w₀ : World b.provider.State}
    {a c : Pool _ _}
    (ha : Pool.Run (racing b.provider ctx view p (Others b.journal ctx.workflowId)).logged
      (fun _ _ _ => True) ⟨⟨w₀, []⟩, []⟩ a)
    (hc : Pool.Run (racing b.provider ctx view p (Others b.journal ctx.workflowId)).logged
      (fun _ _ _ => True) a c) :
    Lasts b.journal ctx.workflowId a.world.world.store c.world.world.store := by
  have hdurable := (ha.invariant (keeps_lasts b.lawful w₀.store) .refl (by simp)).2
  exact (hc.invariant (keeps_lasts b.lawful _) .refl hdurable).1

end

/-! ## Runs -/

section

variable [Serde DateTime] {P : Provider} {ctx : DurableContext} {view : Error → ε}
  {p : Workflow ε R} {others : World P.State → World P.State → Prop}
  {a : Pool (Exec ε R) (Logged (World P.State) (Label R P.State))}
  {ok : Pool (Exec ε R) (Logged (World P.State) (Label R P.State)) →
    Pool.Happens (Exec ε R) (Label R P.State) →
    Pool (Exec ε R) (Logged (World P.State) (Label R P.State)) → Prop}
  {w w' : World P.State} {past : List (Label R P.State)} {ts : List (Exec ε R)} {e e' : Exec ε R}
  {l : Label R P.State}

theorem joins (h : Pool.Run (racing P ctx view p others).logged ok a ⟨⟨w, past⟩, ts⟩)
    (hok : ok ⟨⟨w, past⟩, ts⟩ (.started (.at p {})) ⟨⟨w, past⟩, .at p {} :: ts⟩) :
    Pool.Run (racing P ctx view p others).logged ok a ⟨⟨w, past⟩, .at p {} :: ts⟩ :=
  h.enter rfl hok

theorem takes (h : Pool.Run (racing P ctx view p others).logged ok a ⟨⟨w, past⟩, ts⟩) (i : Nat)
    (he : ts[i]? = some e) (hs : Exec.Step P ctx view e w l e' w')
    (hok : ok ⟨⟨w, past⟩, ts⟩ (.ran e l) ⟨⟨w', l :: past⟩, ts.set i e' ++ []⟩) :
    Pool.Run (racing P ctx view p others).logged ok a ⟨⟨w', l :: past⟩, ts.set i e' ++ []⟩ :=
  h.stepAt i he ⟨⟨hs, rfl⟩, rfl⟩ hok

end

section

attribute [local instance] serdeNanos

def await : Workflow String (Except String (Option Nat)) := .op (.recv Nat "" ⟨0⟩) .done

/-- Two messages for the workflow, in memory. -/
def mailbox : World Memory.Inner where
  store := {
    workflows := AList.singleton "wf"
      (WorkflowStatus.new ⟨0⟩ "wf" "await" .null .pending "local" "")
    notifications := [⟨"m1", "wf", "", .number (.int 1), false, 0⟩,
      ⟨"m2", "wf", "", .number (.int 2), false, 0⟩] }
  clock := ⟨0⟩

/-- The text of two numbers. -/
def digits : TextCodec where
  toText
    | .number (.int 1) => "1"
    | .number (.int 2) => "2"
    | _ => "null"
  fromText t := if t = "1" then .ok (.number (.int 1)) else if t = "2" then .ok (.number (.int 2))
    else .error "expected value at line 1 column 1"
  base64 := id
  unbase64 := .ok

/-- The same in the database. -/
def notifications : World Sqlite.Db where
  store := {
    workflowStatus := AList.singleton "wf" (Sqlite.insertedRow digits .portable
      (WorkflowStatus.new ⟨0⟩ "wf" "await" .null .pending "local" "") "null")
    notifications := [
      { messageUuid := "m1", destinationUuid := "wf", topic := "", message := "1",
        serialization := some PORTABLE, createdAtEpochMs := 0 },
      { messageUuid := "m2", destinationUuid := "wf", topic := "", message := "2",
        serialization := some PORTABLE, createdAtEpochMs := 0 }] }
  clock := ⟨0⟩

theorem mailbox_fresh {i : Nat} {letter : Letter Value}
    (h : (mailbox.store.notifications.map Memory.NotificationRow.letter)[i]? = some letter) :
    letter.consumed = false ∧ letter.body ≠ .null := by
  have hmem := mem_of_getElem? h
  simp only [mailbox, map_cons, map_nil, Memory.NotificationRow.letter, mem_cons,
    not_mem_nil, or_false] at hmem
  rcases hmem with rfl | rfl
  · exact ⟨rfl, fun h => by cases h⟩
  · exact ⟨rfl, fun h => by cases h⟩

/-- One execution consumes the first message, another one is sent, and the next execution finds the
first recorded. -/
theorem recv_exactly_once_await : ∃ c,
    Pool.Run (racing (Backend.memory noText).provider wfContext Error.message await
      (Others (Backend.memory noText).journal "wf")).logged
      (Uncontended (Backend.memory noText).journal) ⟨⟨mailbox, []⟩, []⟩ c ∧
    .returned (.recv Nat "" ⟨0⟩) 0 (.ok (some 1)) ∈ c.world.past ∧
    ExactlyOnce (Backend.memory noText).journal "wf" c.world := by
  have hjoined : Pool.Run (racing (Backend.memory noText).provider wfContext Error.message await
      (Others (Backend.memory noText).journal "wf")).logged
      (Uncontended (Backend.memory noText).journal) ⟨⟨mailbox, []⟩, []⟩ _ := joins (.refl _) trivial
  have hlooked := takes (takes (takes (takes hjoined 0 rfl .begin trivial)
    0 rfl (.inside (.call told)) trivial) 0 rfl (.inside (.call told)) trivial)
    0 rfl (.inside .unfold) trivial
  have hconsumed := takes hlooked 0 rfl (.inside (.call told)) fun i letter hmarks =>
    ⟨rfl, fun hnull => (mailbox_fresh hmarks.before).2 (Except.ok.inj hnull)⟩
  have hsend {w : World Memory.Inner} :=
    @told (Memory.provider noText) (.insertNotification "wf" "" (.number (.int 3)) none) w
  have hsent := hconsumed.tail (c := ⟨⟨_, _⟩, _⟩)
    (.env ⟨.of_send (Memory.journal_lawful noText) hsend, rfl⟩) trivial
  have hreplayed := takes (takes (takes (joins hsent trivial) 0 rfl .begin trivial)
    0 rfl (.inside (.call told)) trivial) 0 rfl .returned trivial
  exact ⟨_, hreplayed, mem_cons_self,
    recv_exactly_once (fun i letter h _ => (mailbox_fresh h).1) hreplayed⟩

theorem nothing_lost_await : ∃ g : Memory.Inner, g.notifications.map (·.consumed) = [true, false] ∧
    Lasts (Backend.memory noText).journal "wf" mailbox.store g := by
  have hjoined : Pool.Run (racing (Backend.memory noText).provider wfContext Error.message await
      (Others (Backend.memory noText).journal "wf")).logged (fun _ _ _ => True)
      ⟨⟨mailbox, []⟩, []⟩ _ := joins (.refl _) trivial
  have hlooked := takes (takes (takes (takes hjoined 0 rfl .begin trivial)
    0 rfl (.inside (.call told)) trivial) 0 rfl (.inside (.call told)) trivial)
    0 rfl (.inside .unfold) trivial
  exact ⟨_, rfl, nothing_lost (.refl _) (takes hlooked 0 rfl (.inside (.call told)) trivial)⟩

/-- **One `recv`, two messages consumed.**  Two executions look for the row at 0 before either has
consumed: both claim a message for it.  In memory the second message is gone; over SQLite the second
execution even returns it, while the first is what is recorded. -/
theorem recv_consumes_two :
    (∃ c, Pool.Run (racing (Memory.provider noText) wfContext Error.message await
        (Others (Memory.journal noText) "wf")).logged (fun _ _ _ => True) ⟨⟨mailbox, []⟩, []⟩ c ∧
      c.world.world.store.notifications.map (·.consumed) = [true, true] ∧
      c.world.world.store.steps.values.map (·.output) = [some (.number (.int 1))] ∧
      ¬ExactlyOnce (Memory.journal noText) "wf" c.world) ∧
    ∃ c, Pool.Run (racing (Sqlite.provider digits .portable) wfContext Error.message await
        (Others (Sqlite.journal digits .portable) "wf")).logged (fun _ _ _ => True)
        ⟨⟨notifications, []⟩, []⟩ c ∧
      .returned (.recv Nat "" ⟨0⟩) 0 (.ok (some 2)) ∈ c.world.past ∧
      ¬ExactlyOnce (Sqlite.journal digits .portable) "wf" c.world := by
  constructor
  · have hjoined : Pool.Run (racing (Memory.provider noText) wfContext Error.message await
        (Others (Memory.journal noText) "wf")).logged (fun _ _ _ => True) ⟨⟨mailbox, []⟩, []⟩ _ :=
      joins (joins (.refl _) trivial) trivial
    have hfirst := takes (takes (takes (takes hjoined 0 rfl .begin trivial)
      0 rfl (.inside (.call told)) trivial) 0 rfl (.inside (.call told)) trivial)
      0 rfl (.inside .unfold) trivial
    have hsecond := takes (takes (takes (takes hfirst 1 rfl .begin trivial)
      1 rfl (.inside (.call told)) trivial) 1 rfl (.inside (.call told)) trivial)
      1 rfl (.inside .unfold) trivial
    have hclaimed := takes (takes hsecond 0 rfl (.inside (.call told)) trivial)
      1 rfl (.inside (.call told)) trivial
    refine ⟨_, hclaimed, rfl, rfl, fun h => absurd (h.once 0 0 1 ?_ ?_) (by decide)⟩
    · exact ⟨_, mem_cons_of_mem _ mem_cons_self, _, _, _, _, _, rfl, rfl, rfl, rfl, rfl⟩
    · exact ⟨_, mem_cons_self, _, _, _, _, _, rfl, rfl, rfl, rfl, rfl⟩
  · have hjoined : Pool.Run (racing (Sqlite.provider digits .portable) wfContext Error.message await
        (Others (Sqlite.journal digits .portable) "wf")).logged (fun _ _ _ => True)
        ⟨⟨notifications, []⟩, []⟩ _ :=
      joins (joins (.refl _) trivial) trivial
    have hfirst := takes (takes (takes (takes hjoined 0 rfl .begin trivial)
      0 rfl (.inside (.call told)) trivial) 0 rfl (.inside (.call told)) trivial)
      0 rfl (.inside .unfold) trivial
    have hsecond := takes (takes (takes (takes hfirst 1 rfl .begin trivial)
      1 rfl (.inside (.call told)) trivial) 1 rfl (.inside (.call told)) trivial)
      1 rfl (.inside .unfold) trivial
    have hclaimed := takes (takes (takes hsecond 0 rfl (.inside (.call told)) trivial)
      1 rfl (.inside (.call told)) trivial) 1 rfl .returned trivial
    refine ⟨_, hclaimed, mem_cons_self, fun h => ?_⟩
    obtain ⟨row, hrow, out, hout, hv⟩ := h.returned Nat "" ⟨0⟩ 0 (some 2) mem_cons_self
    cases hrow
    cases hout
    cases hv

end

end Durare
