import Durare.Engine.Footprints

/-!
# Engine/Charges — who may start an execution

Whoever starts an execution has taken **charge** of its workflow before: by inserting the row of a
run that is not queued, by claiming it, or by finding it in the snapshot of a sweep.  The charge is
given up when the execution starts, or when the row goes back on its queue, where the next claim
takes it over.

* `charging` judges a process by its charges alone: nothing is started, and no row put on a queue,
  that the process is not in charge of.
* `learning` judges it by the deadlines it was told (`learned`): an execution is started with one of
  them.
* `entrusting` is both at once.  Every function of the engine keeps to it; the methods that are over
  when they return leave the charges as they were (`Balanced`).
-/

namespace Durare

open List

open Verb

/-! ## Charges -/

/-- The row waits to be claimed, now or when its delay is over. -/
def Status.waits : Status → Bool
  | .enqueued | .delayed => true
  | _ => false

/-- What a task takes charge of by a call and its answer. -/
def granted : (e : Eff) → Answer e → List String
  | .provider (.insertWorkflowStatus status), .ok (row, _) =>
    if status.queueName = none ∧ row.status.isTerminal = false then [status.id] else []
  | .provider (.listWorkflows filter), .ok rows =>
    if filter.status = [.pending] then rows.map (·.id) else []
  | .provider (.dequeueWorkflows _), .ok claimed => claimed.map (·.id)
  | _, _ => []

/-- The charge a call needs and uses up. -/
def spent : Eff → Option String
  | .spawn id _ _ _ _ => some id
  | .provider (.setWorkflowStatus id status _ _) => if status.waits then some id else none
  | .provider (.enqueueExisting id _) => some id
  | _ => none

/-- What a task is in charge of after a call. -/
def settle (e : Eff) (r : Answer e) (charge : List String) : List String :=
  granted e r ++ (spent e).elim charge charge.erase

/-- The call deletes nothing, and the row of a run that is not queued does not wait. -/
def Eff.Mild : Eff → Prop
  | .provider (.deleteWorkflows _ _) => False
  | .provider (.insertWorkflowStatus status) =>
    status.queueName = none → status.status.waits = false
  | _ => True

/-- A task as seen from its charges: it spends only what it has. -/
def charging : Proc.Judge Eff Answer (List String) where
  handle e charge r charge' := charge' = settle e r charge
  rely charge charge' := charge' = charge
  guar e charge _ _ := e.Mild ∧ ∀ id, spent e = some id → id ∈ charge

variable {charge extra : List String} {e : Eff}

theorem settle_append {r : Answer e} (h : ∀ id, spent e = some id → id ∈ charge) :
    settle e r (charge ++ extra) = settle e r charge ++ extra := by
  unfold settle
  cases hs : spent e with
  | none => simp
  | some id => simp [erase_append_left extra (h id hs)]

theorem count_give {given : Option String} (h : ∀ id, given = some id → id ∈ charge) (id : String) :
    (given.elim charge charge.erase).count id + (if given = some id then 1 else 0) =
      charge.count id := by
  cases given with
  | none => simp
  | some id' =>
    by_cases hid : id' = id
    · subst hid
      have hpos : 0 < charge.count id' := count_pos_iff.mpr (h id' rfl)
      rw [Option.elim_some, count_erase_self, if_pos rfl]
      omega
    · have hne : (some id' : Option String) ≠ some id := fun heq => hid (Option.some.inj heq)
      rw [if_neg hne, Option.elim_some, count_erase_of_ne (Ne.symm hid), Nat.add_zero]

theorem count_settle {e : Eff} {r : Answer e} {charge : List String}
    (h : ∀ id, spent e = some id → id ∈ charge) (id : String) :
    (settle e r charge).count id + (if spent e = some id then 1 else 0) =
      (granted e r).count id + charge.count id := by
  rw [settle, count_append, Nat.add_assoc, count_give h]

variable {α : Type} {p : Proc Eff Answer α}

/-- **The frame rule**: a task does not touch charges it does not need. -/
theorem wp_frame :
    ∀ {Q : α → List String → Prop} {charge : List String}, Proc.wp charging p Q charge →
      Proc.wp charging p (fun a charge'' => ∃ charge', Q a charge' ∧ charge'' = charge' ++ extra)
        (charge ++ extra) := by
  induction p with
  | ret a =>
    intro Q charge h
    exact ⟨charge, h, rfl⟩
  | call e k ih =>
    rintro Q charge h _ rfl r _ rfl
    obtain ⟨⟨hmild, hspent⟩, hk⟩ := h charge rfl r _ rfl
    refine ⟨⟨hmild, fun id hid => mem_append_left extra (hspent id hid)⟩, ?_⟩
    rw [settle_append hspent]
    exact ih r hk
  | iter body s k ihb ihk =>
    rintro Q charge ⟨I, hI, hbody⟩
    refine ⟨fun s charge'' => ∃ charge', I s charge' ∧ charge'' = charge' ++ extra,
      ⟨charge, hI, rfl⟩, ?_⟩
    rintro s' _ ⟨charge', hs', rfl⟩
    refine Proc.wp_mono ?_ (ihb s' (hbody s' charge' hs'))
    rintro (t | b) _ ⟨charge'', h, rfl⟩
    · exact ⟨charge'', h, rfl⟩
    · exact ihk b h

/-! ## Deadlines -/

/-- The deadlines an answer tells: of a run that is not queued, of the rows of a sweep, of the rows
of a claim. -/
def learned : (e : Eff) → Answer e → List (String × Option Int)
  | .provider (.insertWorkflowStatus status), .ok (row, _) =>
    if status.queueName = none then [(status.id, row.deadlineMs)] else []
  | .provider (.listWorkflows filter), .ok rows =>
    if filter.status = [.pending] then rows.map fun row => (row.id, row.deadlineMs) else []
  | .provider (.dequeueWorkflows _), .ok claimed => claimed.map fun row => (row.id, row.deadlineMs)
  | _, _ => []

/-- The rows the engine inserts are those of new runs, and the statuses it writes are its own. -/
def Eff.Authored : Eff → Prop
  | .provider (.insertWorkflowStatus status) =>
    Eff.NewRun (.provider (.insertWorkflowStatus status))
  | .provider (.setWorkflowStatus id status output error) =>
    Eff.Engine (.provider (.setWorkflowStatus id status output error))
  | _ => True

/-- The effect starts an execution with that deadline. -/
def Eff.Starts (id : String) (deadlineMs : Option Int) (e : Eff) : Prop :=
  ∃ key input auth, e = .spawn id key input deadlineMs auth

/-- A process as seen from the deadlines it was told. -/
def learning : Proc.Judge Eff Answer (List (String × Option Int)) where
  handle e known r known' := known' = learned e r ++ known
  rely known known' := known' = known
  guar e known _ _ := e.Authored ∧ ∀ id deadlineMs, e.Starts id deadlineMs →
    (id, deadlineMs) ∈ known

/-- Nothing that was told is forgotten. -/
def Grows (known known' : List (String × Option Int)) : Prop := ∀ l ∈ known, l ∈ known'

theorem Grows.refl (known : List (String × Option Int)) : Grows known known := fun _ hl => hl

theorem Grows.trans {a b c : List (String × Option Int)} (hab : Grows a b) (hbc : Grows b c) :
    Grows a c := fun l hl => hbc l (hab l hl)

theorem grows_append (more known : List (String × Option Int)) : Grows known (more ++ known) :=
  fun _ hl => mem_append_right _ hl

theorem wp_grows :
    ∀ {Q : α → List (String × Option Int) → Prop} {known : List (String × Option Int)},
      Proc.wp learning p Q known →
      Proc.wp learning p (fun a known' => Q a known' ∧ Grows known known') known := by
  induction p with
  | ret a => exact fun h => ⟨h, .refl _⟩
  | call e k ih =>
    rintro Q known h _ rfl r _ rfl
    obtain ⟨hguar, hk⟩ := h _ rfl r _ rfl
    exact ⟨hguar, Proc.wp_mono (fun _ _ h' => ⟨h'.1, (grows_append _ _).trans h'.2⟩) (ih r hk)⟩
  | iter body s k ihb ihk =>
    rintro Q known ⟨I, hI, hbody⟩
    refine ⟨fun s known' => I s known' ∧ Grows known known', ⟨hI, .refl _⟩, ?_⟩
    rintro s' known' ⟨hs', hgrows⟩
    refine Proc.wp_mono ?_ (ihb s' (hbody s' known' hs'))
    rintro (t | b) known'' ⟨h, hgrows'⟩
    · exact ⟨h, hgrows.trans hgrows'⟩
    · exact Proc.wp_mono (fun _ _ h' => ⟨h'.1, (hgrows.trans hgrows').trans h'.2⟩) (ihk b h)

/-! ## Methods that leave the charges as they were -/

/-- Both at once. -/
def entrusting : Proc.Judge Eff Answer (List String × List (String × Option Int)) where
  handle e g r g' := charging.handle e g.1 r g'.1 ∧ learning.handle e g.2 r g'.2
  rely g g' := g' = g
  guar e g r g' := charging.guar e g.1 r g'.1 ∧ learning.guar e g.2 r g'.2

variable {g : List String × List (String × Option Int)}
  {Q : α → List String × List (String × Option Int) → Prop}

theorem wp_charging (h : Proc.wp entrusting p Q g) :
    Proc.wp charging p (fun a charge => ∃ known, Q a (charge, known)) g.1 := by
  refine Proc.wp_mono ?_ (Proc.wp_follow (R := fun g charge => g.1 = charge) ?_ ?_ rfl h)
  · rintro a _ ⟨g', rfl, hQ⟩
    exact ⟨g'.2, hQ⟩
  · rintro g' _ _ rfl rfl
    exact ⟨g', rfl, rfl⟩
  · rintro e g' _ r _ rfl rfl
    exact ⟨(settle e r g'.1, learned e r ++ g'.2), ⟨rfl, rfl⟩, rfl, fun hguar => hguar.1⟩

theorem wp_learning (h : Proc.wp entrusting p Q g) :
    Proc.wp learning p (fun _ known => Grows g.2 known) g.2 := by
  refine Proc.wp_mono (fun _ _ hgrows => hgrows.2)
    (wp_grows (Proc.wp_follow (R := fun g known => g.2 = known) ?_ ?_ rfl h))
  · rintro g' _ _ rfl rfl
    exact ⟨g', rfl, rfl⟩
  · rintro e g' _ r _ rfl rfl
    exact ⟨(settle e r g'.1, learned e r ++ g'.2), ⟨rfl, rfl⟩, rfl, fun hguar => hguar.2⟩

/-- An effect that has nothing to do with charges. -/
structure Eff.Idle (e : Eff) : Prop where
  mild : e.Mild
  authored : e.Authored
  spent : spent e = none
  granted : ∀ r, granted e r = []
  learned : ∀ r, learned e r = []

theorem Eff.Plain.idle (h : e.Plain) : e.Idle := by
  cases e with
  | provider c =>
    cases c with
    | insertWorkflowStatus | setWorkflowStatus | listWorkflows | dequeueWorkflows
    | enqueueExisting | deleteWorkflows => exact h.elim
    | _ => exact ⟨trivial, trivial, rfl, fun _ => rfl, fun _ => rfl⟩
  | spawn => exact h.elim
  | _ => exact ⟨trivial, trivial, rfl, fun _ => rfl, fun _ => rfl⟩

theorem Eff.Polls.idle (h : e.Polls) : e.Idle := by
  cases h with
  | _ => exact ⟨trivial, trivial, rfl, fun _ => rfl, fun _ => rfl⟩

variable {deadlineMs : Option Int} {id : String}

/-- What starts an execution uses up a charge. -/
theorem Eff.Starts.spent (h : e.Starts id deadlineMs) : spent e = some id := by
  obtain ⟨key, input, auth, rfl⟩ := h
  rfl

/-- The method gives up what it takes charge of. -/
def Balanced {α : Type} (x : Verb α) : Prop := Moves entrusting (fun g g' => g'.1 = g.1) x

section

variable {α β σ : Type} {s : CtxState} {g : List String × List (String × Option Int)}

theorem Eff.Idle.keeps (h : e.Idle) {r : Answer e} {g' : List String × List (String × Option Int)}
    (hr : entrusting.handle e g r g') : entrusting.guar e g r g' ∧ g' = g := by
  have hnone {id : String} : Durare.spent e ≠ some id := by
    rw [h.spent]
    exact fun hid => nomatch hid
  refine ⟨⟨⟨h.mild, fun id hid => absurd hid hnone⟩, h.authored,
    fun id deadlineMs hstarts => absurd hstarts.spent hnone⟩, Prod.ext ?_ ?_⟩
  · rw [hr.1, settle, h.spent, h.granted]
    rfl
  · rw [hr.2, h.learned]
    rfl

theorem calls_idle {p : Proc Eff Answer α} (h : p.Calls Eff.Idle) :
    Proc.wp entrusting p (fun _ g' => g' = g) g := by
  refine h.keeps ?_ ?_ g rfl
  · rintro _ _ rfl rfl
    rfl
  · rintro e he _ r _ rfl hr
    exact he.keeps hr

variable {R : Except Error β → CtxState → List String × List (String × Option Int) → Prop}

/-- An effect that has nothing to do with charges, and what follows it. -/
theorem wp_idle {f : Answer e → Verb β} (he : e.Idle) (h : ∀ r, wp entrusting (f r) R s g) :
    wp entrusting (perform e >>= f) R s g := by
  refine wp_perform ?_
  rintro _ rfl r _ hr
  obtain ⟨hguar, rfl⟩ := he.keeps hr
  exact ⟨hguar, h r⟩

theorem wp_idle_ask {c : ProviderCall} {f : c.Result → Verb β} (hc : Eff.Idle (.provider c))
    (h : ∀ r, after entrusting f R r s g) : wp entrusting (ask c >>= f) R s g := by
  refine wp_ask ?_
  rintro _ rfl r _ hr
  obtain ⟨hguar, rfl⟩ := hc.keeps hr
  exact ⟨hguar, h r⟩

variable {x : Verb α}

theorem balanced_of_calls (h : x.Calls Eff.Idle) : Balanced x :=
  fun s _ => Proc.wp_mono (fun _ _ hg => congrArg Prod.fst hg) (calls_idle (h s))

theorem balanced_of_plain (h : x.Calls Eff.Plain) : Balanced x :=
  balanced_of_calls fun s => (h s).mono fun _ => Eff.Plain.idle

theorem Balanced.bind {f : α → Verb β} (hx : Balanced x) (hf : ∀ a, Balanced (f a)) :
    Balanced (x >>= f) := Moves.bind hx hf fun hab hbc => hbc.trans hab

/-! ## Starting -/

variable {rt : Runtime} {id name : String} {input : Value} {opts : WorkflowOptions}
  {parent : Option String} {auth : AuthContext} {charge : List String}
  {known : List (String × Option Int)} {g' : List String × List (String × Option Int)}

/-- A run that is to be started here: the process is in charge of its id, and was told its
deadline. -/
def Took (id : String) (g g' : List String × List (String × Option Int)) :
    Except Error (WorkflowStatus × Bool × Bool) → Prop
  | .ok (canonical, queued, _) =>
    if queued || canonical.status.isTerminal then g'.1 = g.1
    else g'.1 = id :: g.1 ∧ (id, canonical.deadlineMs) ∈ g'.2
  | .error _ => g'.1 = g.1

theorem newRun_mild {nowMs : Int} {created : DateTime} :
    Eff.Mild (.provider (.insertWorkflowStatus
      (newRun rt nowMs created id name input opts parent auth))) := by
  intro hqueue
  have hnone : opts.queue = none := hqueue
  simp [newRun, hnone, WorkflowStatus.new, Status.waits]

theorem wp_insertRun_charge : wp entrusting (insertRun rt id name input opts parent auth)
    (fun r _ g' => Took id g g' r) s g := by
  have hinsert : wp entrusting (insertRun.insert rt id name input opts parent auth)
      (fun r _ g' => Took id g g' r) s g := by
    refine wp_idle (Eff.Plain.idle trivial) fun now =>
      wp_idle (Eff.Plain.idle trivial) fun created =>
      wp_ask ?_
    rintro g rfl r ⟨charge, known⟩ ⟨rfl, rfl⟩
    refine ⟨⟨⟨newRun_mild, fun _ hid => nomatch hid⟩, Eff.NewRun.insert, ?_⟩, ?_⟩
    · rintro _ _ ⟨_, _, _, heq⟩
      cases heq
    cases r with
    | error e => rfl
    | ok answer =>
      obtain ⟨row, fresh⟩ := answer
      change if opts.queue.isSome || row.status.isTerminal then
          (if opts.queue = none ∧ row.status.isTerminal = false then [id] else []) ++ g.1 = g.1
        else (if opts.queue = none ∧ row.status.isTerminal = false then [id] else []) ++ g.1 =
            id :: g.1 ∧
          (id, row.deadlineMs) ∈ (if opts.queue = none then [(id, row.deadlineMs)] else []) ++ g.2
      cases opts.queue with
      | some q => simp
      | none => cases row.status.isTerminal <;> simp
  unfold insertRun
  split
  · split
    · exact rfl
    · exact hinsert
  · split
    · exact rfl
    · exact hinsert

/-- The start of an execution gives up the charge that was taken for it. -/
theorem wp_spawn_charge {key : String}
    {Q : Except Error Unit → CtxState → List String × List (String × Option Int) → Prop}
    (hcharge : g.1 = id :: charge) (htold : (id, deadlineMs) ∈ g.2)
    (h : Q (.ok ()) s (charge, g.2)) :
    wp entrusting (perform (.spawn id key input deadlineMs auth)) Q s g := by
  rintro g rfl r ⟨_, _⟩ ⟨rfl, rfl⟩
  refine ⟨⟨⟨trivial, ?_⟩, trivial, ?_⟩, ?_⟩
  · rintro _ ⟨rfl⟩
    rw [hcharge]
    exact mem_cons_self
  · rintro _ _ ⟨_, _, _, ⟨rfl⟩⟩
    exact htold
  · have hsettle : settle (.spawn id key input deadlineMs auth) r g.1 = charge := by
      simp [settle, granted, spent, hcharge]
    rw [hsettle]
    exact h

theorem balanced_spawnChild {parent : String} :
    Balanced (spawnChild rt id name input opts parent auth) := by
  intro s g
  unfold spawnChild
  dsimp only
  split
  · exact rfl
  · refine wp_bind (wp_mono ?_ wp_insertRun_charge)
    rintro (_ | ⟨canonical, queued, fresh⟩) s' g' htook
    · exact htook
    · rw [after_ok]
      dsimp only [Took] at htook ⊢
      cases queued with
      | true => exact htook
      | false =>
        cases hend : canonical.status.isTerminal with
        | true =>
          rw [hend] at htook
          exact htook
        | false =>
          rw [hend] at htook
          exact wp_spawn_charge htook.1 htook.2 rfl

theorem balanced_startWorkflow {ctx : DurableContext} {I : Type} [Serde I] {input : I} :
    Balanced (startWorkflow ctx I name input opts) := by
  refine Balanced.bind (balanced_of_plain calls_nextSeq) fun seq =>
    Balanced.bind (balanced_of_plain (calls_ask trivial)) fun found => ?_
  cases found with
  | some child =>
    dsimp only
    split
    · exact balanced_of_plain calls_fail
    · exact balanced_of_plain calls_pure
  | none =>
    exact Balanced.bind (balanced_of_plain calls_toValue) fun _ =>
      Balanced.bind balanced_spawnChild fun _ =>
        balanced_of_plain (calls_bind (calls_ask trivial) fun _ => calls_pure)

theorem balanced_start {E : Engine} {uuid : String} {I : Type} [Serde I] {input : I} :
    Balanced (start E uuid I name input opts) := by
  refine Balanced.bind (balanced_of_plain calls_toValue) fun json => ?_
  dsimp only
  split
  · exact balanced_of_plain calls_fail
  · split
    · exact balanced_of_plain calls_fail
    · intro s g
      refine wp_bind (wp_loop (fun _ _ g' => g'.1 = g.1) rfl ?_)
      intro _ s g₁ hg₁
      refine wp_bind (wp_attempt (wp_mono ?_ wp_insertRun_charge))
      rintro (e | ⟨canonical, queued, fresh⟩) s' g₂ htook
      · have hg₂ : g₂.1 = g.1 := htook.trans hg₁
        rw [after_ok]
        dsimp only
        split
        · split
          · refine wp_idle_ask ⟨trivial, trivial, rfl, fun _ => rfl, fun _ => rfl⟩ fun r => ?_
            rcases r with _ | _ | existing
            · exact hg₂
            · exact hg₂
            · exact hg₂
          · exact hg₂
        · exact hg₂
      · rw [after_ok, wp_pure]
        dsimp only [Took] at htook ⊢
        rw [after_ok]
        dsimp only
        cases hrun : queued || canonical.status.isTerminal with
        | true =>
          rw [hrun] at htook
          exact htook.trans hg₁
        | false =>
          rw [hrun] at htook
          exact wp_bind (wp_spawn_charge htook.1 htook.2 hg₁)

/-! ## Dispatchers -/

variable {E : Engine} {queue : WorkflowQueue}

theorem wp_dispatchClaimed_charge {wf : WorkflowStatus} (htold : (wf.id, wf.deadlineMs) ∈ known) :
    wp entrusting (dispatchClaimed E wf) (fun r _ g => r = .ok () ∧ g = (charge, known)) s
      (wf.id :: charge, known) := by
  unfold dispatchClaimed
  dsimp only
  split
  · exact wp_spawn_charge rfl htold ⟨rfl, rfl⟩
  · refine wp_bind (wp_attempt ?_)
    rintro _ rfl r g ⟨hcharge, hknown⟩
    refine ⟨⟨⟨trivial, ?_⟩, .inl .enqueued, fun _ _ hstarts => ?_⟩, rfl, Prod.ext ?_ hknown⟩
    · rintro _ ⟨rfl⟩
      exact mem_cons_self
    · obtain ⟨_, _, _, heq⟩ := hstarts
      cases heq
    · rw [hcharge]
      change [] ++ (wf.id :: charge).erase wf.id = charge
      simp

theorem wp_dispatchAll_charge {claimed : List WorkflowStatus}
    (htold : ∀ wf ∈ claimed, (wf.id, wf.deadlineMs) ∈ known) :
    wp entrusting (forEach (dispatchClaimed E) claimed) (fun _ _ g => g.1 = charge) s
      (claimed.map (·.id) ++ charge, known) := by
  induction claimed generalizing s with
  | nil => rfl
  | cons wf claimed ih =>
    refine wp_bind (wp_mono ?_ (wp_dispatchClaimed_charge (htold wf mem_cons_self)))
    rintro _ s' _ ⟨rfl, rfl⟩
    exact ih fun wf' hwf' => htold wf' (mem_cons_of_mem _ hwf')

theorem balanced_dispatchPartition {key : Option String} :
    Balanced (dispatchPartition E queue key) := by
  refine Balanced.bind (balanced_of_calls (calls_perform
    ⟨trivial, trivial, rfl, fun _ => rfl, fun _ => rfl⟩)) fun running => ?_
  dsimp only
  split
  · exact balanced_of_plain calls_pure
  · intro s g
    refine wp_bind (wp_attempt ?_)
    rintro g rfl claimed ⟨_, _⟩ ⟨rfl, rfl⟩
    refine ⟨⟨⟨trivial, fun _ hid => nomatch hid⟩, trivial, ?_⟩, ?_⟩
    · rintro _ _ ⟨_, _, _, heq⟩
      cases heq
    cases claimed with
    | error e => rfl
    | ok claimed =>
      have hall : wp entrusting (forEach (dispatchClaimed E) claimed >>= fun _ => pure false)
          (fun _ _ g' => g'.1 = g.1) s (claimed.map (·.id) ++ g.1,
            claimed.map (fun row => (row.id, row.deadlineMs)) ++ g.2) := by
        refine wp_bind (wp_mono ?_ (wp_dispatchAll_charge fun wf hwf =>
          mem_append_left _ (mem_map_of_mem hwf)))
        rintro (_ | _) s' g' h
        · exact h
        · exact h
      exact hall

theorem balanced_queueDispatchLoop : Balanced (queueDispatchLoop E queue) :=
  Moves.queueDispatchLoop (fun _ => rfl) (fun hab hbc => hbc.trans hab) (fun hx =>
    balanced_of_calls fun s => (hx s).mono fun _ he => he.idle) fun _ => balanced_dispatchPartition

end

/-! ## Executions -/

/-- A status write of the engine that does not put the row on a queue. -/
theorem idle_write {status : Status} {output : Option Value} {error : Option String}
    (h : Eff.Engine (.provider (.setWorkflowStatus id status output error)))
    (hwaits : status.waits = false) :
    Eff.Idle (.provider (.setWorkflowStatus id status output error)) :=
  ⟨trivial, h, by simp [spent, hwaits], fun _ => rfl, fun _ => rfl⟩

theorem idle_conclude {P : Provider} (caught : Caught (Except Error Value)) :
    (conclude P id caught).Calls Eff.Idle := by
  refine calls_conclude (fun h hne => idle_write (.inl h) ?_) caught
  cases h with
  | enqueued => exact absurd rfl hne
  | _ => rfl

section

variable [Serde DateTime] {X : TextCodec} {E : Engine} {ctx : DurableContext}

theorem balanced_op (o : Op) : Balanced (o.run (Memory.provider X) ctx) := by
  cases o with
  | startWorkflow I name input opts => exact balanced_startWorkflow
  | _ => exact balanced_of_calls (calls_op_of (fun _ he => he.plain.idle) (fun _ _ _ => trivial)
      fun _ _ _ _ _ h => nomatch h)

theorem wp_runBody_charge {R : Type} (body : Program Act Act.Outcome R) :
    ∀ s g, Proc.wp entrusting (runBody (Memory.provider X) ctx body s)
      (fun _ g' => g'.1 = g.1) g := by
  induction body with
  | done r => exact fun _ _ => rfl
  | op a k ih =>
    have hact : ∀ s g, Proc.wp entrusting (a.run (Memory.provider X) ctx s)
        (fun _ g' => g'.1 = g.1) g := by
      cases a with
      | op o => exact balanced_op o
      | result O id => exact balanced_of_plain (calls_result trivial trivial)
      | outside T =>
        exact fun s g => Proc.wp_mono (fun _ _ hg => congrArg Prod.fst hg)
          (calls_idle ⟨Eff.Plain.idle trivial, fun _ => trivial⟩)
    intro s g
    refine Proc.wp_bind (Proc.wp_mono ?_ (hact s g))
    intro r g' hg'
    exact Proc.wp_mono (fun _ _ h => h.trans hg') (ih r.1 r.2 g')

/-- An execution needs no charge.  One that is cut off between the row of a child and its start
keeps the charge it took. -/
theorem wp_runToCompletion_charge {rt : Runtime} {handler : WorkflowFn} {input : Value}
    {auth : AuthContext} {s : CtxState} {known : List (String × Option Int)} :
    wp entrusting (runToCompletion (Memory.provider X) rt handler id input deadlineMs auth)
      (fun _ _ _ => True) s ([], known) := by
  have hidle {α : Type} {x : Verb α} (h : x.Calls Eff.Idle) {s : CtxState}
      {g : List String × List (String × Option Int)} : wp entrusting x (fun _ _ _ => True) s g :=
    Proc.wp_mono (fun _ _ _ => trivial) (calls_idle (h s))
  have hbody {ctx : DurableContext} :=
    @wp_runBody_charge _ X ctx _ (handler ctx input) {} ([], known)
  have helapsed {deadline : DateTime} : Eff.Idle (.elapsed deadline) :=
    ⟨trivial, trivial, rfl, fun _ => rfl, fun _ => rfl⟩
  unfold runToCompletion
  cases deadlineMs with
  | none =>
    refine wp_bind (wp_ofProc (Proc.wp_mono ?_ hbody))
    exact fun caught _ _ => hidle (idle_conclude caught)
  | some dl =>
    refine wp_idle (Eff.Plain.idle trivial) fun now =>
      wp_bind (wp_ofProc (Proc.wp_mono ?_ (Proc.wp_cut ?_ ?_ hbody)))
    · rintro (_ | caught) g -
      · exact hidle (calls_bind (calls_ask (idle_write (.inr ⟨id, rfl⟩) rfl)) fun _ => calls_fail)
      · exact hidle (idle_conclude caught)
    · rintro _ _ _ rfl rfl
      rfl
    · exact fun g r g' hr => helapsed.keeps hr

end

end Durare
