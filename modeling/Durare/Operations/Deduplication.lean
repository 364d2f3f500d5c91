import Durare.Operations.System

/-!
# Operations/Deduplication — deduplication slots

A row with a queue and a deduplication id holds the slot of the two.  An insert is refused when
another row holds the slot it asks for, and no other operation gives a row a deduplication id: it
keeps the one it has on the queue it is on, or loses it.  So a slot has one holder, and a terminal
row has none.

The one operation that moves a row to another queue is `enqueue_existing`, which asks nothing; it is
harmless where the engine calls it, right after a resume, because a resume gives the slot up.

An insert under an id that has a row is meant to be a no-op.  But the slot is looked at first:
`resubmit_iff` says when it is one.
-/

namespace Durare.Memory

/-- The row holds the slot. -/
def Holds (queue dedup : String) (row : WorkflowStatus) : Prop :=
  row.queueName = some queue ∧ row.dedupId = some dedup

/-- Every slot has at most one holder, and terminal rows hold none. -/
structure SlotsExclusive (g : Inner) : Prop where
  keyed : WellKeyed g
  exclusive : ∀ {id id' row row' queue dedup}, g.workflows.lookup id = some row →
    g.workflows.lookup id' = some row' → Holds queue dedup row → Holds queue dedup row' → id = id'
  freed : ∀ {id row}, g.workflows.lookup id = some row → row.status.isTerminal = true →
    row.dedupId = none

/-- The operations on their own: rows are inserted live, nothing is imported, and a row is not put
on a queue but by a resume. -/
def Operation.Admitted : Operation → Prop
  | call (.insertWorkflowStatus status) => status.status.isTerminal = false
  | call (.enqueueExisting _ _) => False
  | importWorkflow _ => False
  | _ => True

/-- Put rows on a queue, one after the other, each at its own time. -/
def enqueueAll (queue : String) (ids : List (String × DateTime)) (g : Inner) : Inner :=
  ids.foldl (fun g e => (enqueueExisting e.2 e.1 queue g).2) g

/-- One thing that is done to the store: an admitted operation, or a resume with the rows it resumes
put on a queue right after it. -/
inductive SlotStep (X : TextCodec) (g : Inner) : Inner → Prop where
  | operation {op : Operation} (hop : op.Admitted) (now : DateTime) (uuid : String) :
      SlotStep X g (op.run X now uuid g)
  | resumeOn {c : ProviderCall} {ids : List (String × DateTime)} (queue : String)
      (hc : (Operation.call c).Admitted) (hids : ∀ e ∈ ids, Resumes e.1 c) (now : DateTime)
      (uuid : String) :
      SlotStep X g (enqueueAll queue ids (call c now uuid g).2)

/-- The row gives its slot up, or keeps it on the same queue and does not end. -/
def Yields (row row' : WorkflowStatus) : Prop :=
  row'.dedupId = none ∨ row'.dedupId = row.dedupId ∧ row'.queueName = row.queueName ∧
    (row'.status.isTerminal = true → row.status.isTerminal = true)

theorem Yields.refl (row : WorkflowStatus) : Yields row row := .inr ⟨rfl, rfl, id⟩

variable {queue : String} {row row' : WorkflowStatus}

theorem Yields.holds (h : Yields row row') {dedup : String} (hrow : Holds queue dedup row') :
    Holds queue dedup row := by
  obtain ⟨hqueue, hdedup⟩ := hrow
  rcases h with hnone | ⟨hsame, hsameQueue, -⟩
  · rw [hnone] at hdedup
    cases hdedup
  · exact ⟨hsameQueue ▸ hqueue, hsame ▸ hdedup⟩

variable {c : ProviderCall}

section

variable {X : TextCodec} {now : DateTime} {id uuid : String} {g : Inner}

/-- A call that neither inserts the row nor puts it on a queue. -/
theorem Touch.yields (h : Touch now id c (some row) (some row'))
    (hc : ∀ id queue, c ≠ .enqueueExisting id queue) : Yields row row' := by
  cases h with
  | keep => exact .refl row
  | @write _ status =>
    cases hterm : status.isTerminal with
    | true => exact .inl (if_pos hterm)
    | false => exact .inr ⟨if_neg (by simp [hterm]), rfl, fun h =>
      absurd (hterm.symm.trans h) (by simp)⟩
  | cancel _ hlive => exact .inl (by rw [cancelRow, if_neg (by simp [hlive])])
  | resume => exact .inl rfl
  | enqueue => exact absurd rfl (hc _ _)
  | @bump _ max =>
    unfold bumpRow
    dsimp only
    split
    · exact .inl rfl
    · exact .inr ⟨rfl, rfl, fun h => h⟩
  | claim => exact .inr ⟨rfl, rfl, fun h => by cases h⟩
  | promote => exact .inr ⟨rfl, rfl, fun h => by cases h⟩

/-- **What an admitted operation leaves at an id**: a row that yields to the one before, a live row
that was inserted, or a row without a slot. -/
theorem admitted_cases (hg : WellKeyed g) {op : Operation} (hop : op.Admitted)
    (hrow' : (op.run X now uuid g).workflows.lookup id = some row') :
    (∃ row, g.workflows.lookup id = some row ∧ Yields row row') ∨
    (op = .call (.insertWorkflowStatus row') ∧ g.workflows.lookup id = none ∧
      row'.status.isTerminal = false ∧ row'.id = id) ∨ row'.dedupId = none := by
  have htouches : Touches X now id op _ _ := touches hg op uuid
  rw [hrow'] at htouches
  cases hx : g.workflows.lookup id with
  | none =>
    rw [hx] at htouches
    cases htouches with
    | call h =>
      cases h with
      | create hid => exact .inr (.inl ⟨rfl, rfl, hop, hid⟩)
    | fork => exact .inr (.inr rfl)
    | imported => exact hop.elim
  | some row =>
    rw [hx] at htouches
    cases htouches with
    | keep => exact .inl ⟨_, rfl, .refl _⟩
    | call h =>
      refine .inl ⟨row, rfl, h.yields ?_⟩
      rintro id queue rfl
      exact hop
    | fork => exact .inr (.inr rfl)
    | imported => exact hop.elim
    | delay hdelayed => exact .inl ⟨row, rfl, .inr ⟨rfl, rfl, fun h => h⟩⟩

/-- A row that was inserted asked for a slot that was free. -/
theorem free_of_inserted {status : WorkflowStatus} (hnone : g.workflows.lookup status.id = none)
    (hrow : (insertWorkflowStatus status g).2.workflows.lookup status.id = some status) :
    ¬SlotTaken status g := by
  rcases insertWorkflowStatus_cases status g with ⟨_, _, -, -, -, heq⟩ | ⟨hfree, -⟩
  · rw [heq, hnone] at hrow
    cases hrow
  · exact hfree

/-- Two holders of a slot after an operation, the first of them inserted by it. -/
theorem not_holds_inserted (hg : SlotsExclusive g) {id' dedup : String}
    (hnone : g.workflows.lookup id = none) (hid : row.id = id)
    (hinserted : (insertWorkflowStatus row g).2.workflows.lookup id = some row)
    (hrow : Holds queue dedup row) (hx : g.workflows.lookup id' = some row')
    (hrow' : Holds queue dedup row') : False := by
  subst hid
  refine free_of_inserted hnone hinserted ⟨queue, dedup, hrow.1, hrow.2, row', ?_, ?_, hrow'⟩
  · exact AList.mem_values.mpr ⟨id', hx⟩
  · intro heq
    rw [hg.keyed id' row' hx] at heq
    rw [heq, hnone] at hx
    cases hx

/-- **An admitted operation keeps the slots exclusive.** -/
theorem SlotsExclusive.run (hg : SlotsExclusive g) {op : Operation} (hop : op.Admitted) :
    SlotsExclusive (op.run X now uuid g) where
  keyed := wellKeyed_run hg.keyed op uuid
  exclusive := by
    intro id id' row row' queue dedup hrow hrow' hholds hholds'
    rcases admitted_cases hg.keyed hop hrow with ⟨old, hold, hyields⟩ | ⟨rfl, hnone, -, hid⟩ | hfree
    · rcases admitted_cases hg.keyed hop hrow' with
        ⟨old', hold', hyields'⟩ | ⟨rfl, hnone', -, hid'⟩ | hfree'
      · exact hg.exclusive hold hold' (hyields.holds hholds) (hyields'.holds hholds')
      · exact (not_holds_inserted hg hnone' hid' hrow' hholds' hold (hyields.holds hholds)).elim
      · exact absurd (hfree'.symm.trans hholds'.2) (by simp)
    · rcases admitted_cases hg.keyed hop hrow' with
        ⟨old', hold', hyields'⟩ | ⟨heq, -, -, hid'⟩ | hfree'
      · exact (not_holds_inserted hg hnone hid hrow hholds hold' (hyields'.holds hholds')).elim
      · cases heq
        exact hid.symm.trans hid'
      · exact absurd (hfree'.symm.trans hholds'.2) (by simp)
    · exact absurd (hfree.symm.trans hholds.2) (by simp)
  freed := by
    intro id row hrow hterm
    rcases admitted_cases hg.keyed hop hrow with ⟨old, hold, hyields⟩ | ⟨-, -, hlive, -⟩ | hfree
    · rcases hyields with hnone | ⟨hsame, -, hended⟩
      · exact hnone
      · rw [hsame]
        exact hg.freed hold (hended hterm)
    · rw [hlive] at hterm
      cases hterm
    · exact hfree

theorem dedupId_resumed (hg : SlotsExclusive g) (hc : Resumes id c)
    (hrow' : (call c now uuid g).2.workflows.lookup id = some row') : row'.dedupId = none := by
  cases hx : g.workflows.lookup id with
  | none =>
    have htouch : Touch now id c (g.workflows.lookup id) _ := touch hg.keyed c uuid
    rw [hx, hrow'] at htouch
    cases htouch with
    | create => exact hc.elim
  | some row =>
    cases hres : resumable row with
    | true =>
      rw [lookup_of_resumes hc hx hres] at hrow'
      cases hrow'
      rfl
    | false =>
      -- Only a terminal row cannot be resumed, and it has given its slot up.
      have hterm : row.status.isTerminal = true := by
        simp only [resumable, Bool.or_eq_false_iff, Bool.not_eq_false'] at hres
        exact hres.1
      have hyields : Yields row row' := by
        have htouch : Touch now id c (g.workflows.lookup id) _ := touch hg.keyed c uuid
        rw [hx, hrow'] at htouch
        refine htouch.yields ?_
        rintro id' queue rfl
        exact hc
      rcases hyields with hnone | ⟨hsame, -, -⟩
      · exact hnone
      · rw [hsame]
        exact hg.freed hx hterm

/-- A row without a slot is put on a queue. -/
theorem SlotsExclusive.enqueue (hg : SlotsExclusive g) {queue : String}
    (hfree : ∀ row, g.workflows.lookup id = some row → row.dedupId = none) :
    SlotsExclusive (enqueueExisting now id queue g).2 := by
  -- The row it changes has no slot, and every other row is as it was.
  have hrows {id' : String} {row' : WorkflowStatus}
      (h : (enqueueExisting now id queue g).2.workflows.lookup id' = some row') :
      row'.dedupId = none ∨ g.workflows.lookup id' = some row' := by
    by_cases hid : id' = id
    · subst hid
      rw [show (enqueueExisting now id' queue g).2.workflows.lookup id' =
        (g.workflows.lookup id').map (enqueueRow now queue)
          from AList.lookup_modify_self _ _ _] at h
      obtain ⟨row, hrow, rfl⟩ := Option.map_eq_some_iff.mp h
      exact .inl (hfree row hrow)
    · exact .inr ((AList.lookup_modify_ne g.workflows _ hid).symm.trans h)
  refine ⟨wellKeyed_call hg.keyed (.enqueueExisting id queue) "", ?_, ?_⟩
  · intro id₁ id₂ row₁ row₂ q d hrow₁ hrow₂ hholds₁ hholds₂
    rcases hrows hrow₁ with hnone | hold₁
    · exact absurd (hnone.symm.trans hholds₁.2) (by simp)
    · rcases hrows hrow₂ with hnone | hold₂
      · exact absurd (hnone.symm.trans hholds₂.2) (by simp)
      · exact hg.exclusive hold₁ hold₂ hholds₁ hholds₂
  · intro id' row' hrow' hterm
    rcases hrows hrow' with hnone | hold
    · exact hnone
    · exact hg.freed hold hterm

/-- Rows without a slot are put on a queue, one after the other. -/
theorem SlotsExclusive.enqueueAll (ids : List (String × DateTime)) (hg : SlotsExclusive g)
    (hfree : ∀ e ∈ ids, ∀ row, g.workflows.lookup e.1 = some row → row.dedupId = none) :
    SlotsExclusive (enqueueAll queue ids g) := by
  induction ids generalizing g with
  | nil => exact hg
  | cons e ids ih =>
    refine ih (hg.enqueue (hfree e List.mem_cons_self)) fun e' he' row' hrow' => ?_
    have hfree' := hfree e' (List.mem_cons_of_mem _ he')
    by_cases hid : e'.1 = e.1
    · rw [hid] at hrow' hfree'
      have hmap : (g.workflows.lookup e.1).map (enqueueRow e.2 queue) = some row' :=
        (AList.lookup_modify_self g.workflows _ _).symm.trans hrow'
      obtain ⟨row, hrow, rfl⟩ := Option.map_eq_some_iff.mp hmap
      exact hfree' row hrow
    · exact hfree' row' ((AList.lookup_modify_ne g.workflows _ hid).symm.trans hrow')

theorem SlotsExclusive.step {g' : Inner} (hg : SlotsExclusive g) (h : SlotStep X g g') :
    SlotsExclusive g' := by
  cases h with
  | operation hop now uuid => exact hg.run hop
  | @resumeOn c ids queue hc hids now uuid =>
    refine (hg.run (X := X) hc).enqueueAll ids fun e he row hrow => ?_
    exact dedupId_resumed hg (hids e he) hrow

theorem slotsExclusive_empty : SlotsExclusive {} where
  keyed := wellKeyed_empty
  exclusive := by
    intro id id' row row' queue dedup h
    cases h
  freed := by
    intro id row h
    cases h

/-- **A slot has at most one holder, and terminal rows hold none**, whatever was done to the
store. -/
theorem slots_exclusive (hrun : Relation.ReflTransGen (SlotStep X) {} g) :
    (∀ id id' row row' queue dedup, g.workflows.lookup id = some row →
      g.workflows.lookup id' = some row' → Holds queue dedup row → Holds queue dedup row' →
        id = id') ∧
    ∀ id row, g.workflows.lookup id = some row → row.status.isTerminal = true →
      row.dedupId = none := by
  have hg : SlotsExclusive g := by
    induction hrun with
    | refl => exact slotsExclusive_empty
    | tail _ h ih => exact ih.step h
  exact ⟨fun _ _ _ _ _ _ hrow hrow' => hg.exclusive hrow hrow', fun _ _ hrow => hg.freed hrow⟩

/-! ## Submitting an id again -/

/-- **Submitting an id again is a no-op iff the slot it asks for is not another's.** -/
theorem resubmit_iff {status row : WorkflowStatus} (hrow : g.workflows.lookup status.id =
    some row) : insertWorkflowStatus status g = (.ok (row, false), g) ↔ ¬SlotTaken status g := by
  rcases insertWorkflowStatus_cases status g with ⟨queue, dedup, hqueue, hdedup, hheld,
    heq⟩ | ⟨hfree, heq⟩
  · rw [heq]
    refine iff_of_false (fun h => ?_) (not_not_intro ⟨queue, dedup, hqueue, hdedup, hheld⟩)
    cases h
  · rw [heq, insertWorkflowStatus.insert, hrow]
    exact iff_of_true rfl hfree

end

/-- A row waiting on the queue `q` with the deduplication id `daily`. -/
def daily (id : String) : WorkflowStatus :=
  { WorkflowStatus.new ⟨0⟩ id "report" .null .enqueued "" "" with
    queueName := some "q"
    dedupId := some "daily" }

/-- The report `a` ran and finished, and `b` waits in its slot. -/
def rerun : Inner :=
  (insertWorkflowStatus (daily "b") (setWorkflowStatus ⟨1⟩ "a" .success (some .null) none
    (insertWorkflowStatus (daily "a") {}).2).2).2

theorem reaches_rerun : Relation.ReflTransGen (SlotStep noText) {} rerun := by
  have hstep {g : Inner} (c : ProviderCall) (hc : (Operation.call c).Admitted) (now : DateTime) :
      SlotStep noText g (call c now "" g).2 := .operation hc now ""
  exact ((Relation.ReflTransGen.single (hstep (.insertWorkflowStatus (daily "a")) rfl ⟨0⟩)).tail
    (hstep (.setWorkflowStatus "a" .success (some .null) none) trivial ⟨1⟩)).tail
    (hstep (.insertWorkflowStatus (daily "b")) rfl ⟨0⟩)

theorem slots_exclusive_rerun : ∃ row, rerun.workflows.lookup "b" = some row ∧
    Holds "q" "daily" row ∧ ∀ id row', rerun.workflows.lookup id = some row' →
      Holds "q" "daily" row' → id = "b" := by
  refine ⟨daily "b", rfl, ⟨rfl, rfl⟩, fun id row' hrow' hholds => ?_⟩
  exact (slots_exclusive reaches_rerun).1 _ _ _ _ _ _ hrow' rfl hholds ⟨rfl, rfl⟩

/-- Without a deduplication id `a` can be submitted again. -/
theorem resubmit_iff_plain : ∃ row, rerun.workflows.lookup "a" = some row ∧
    insertWorkflowStatus { daily "a" with dedupId := none } rerun = (.ok (row, false), rerun) := by
  refine ⟨_, rfl, (resubmit_iff rfl).mpr ?_⟩
  rintro ⟨_, _, -, hdedup, -⟩
  cases hdedup

/-- **A finished run that is submitted again is refused**, because its slot has gone to another. -/
theorem resubmit_refused : Relation.ReflTransGen (SlotStep noText) {} rerun ∧
    (rerun.workflows.lookup "a").map WorkflowStatus.status = some .success ∧
    insertWorkflowStatus (daily "a") rerun = (.error (.queueDeduplicated "q" "daily"), rerun) :=
  ⟨reaches_rerun, rfl, rfl⟩

end Durare.Memory
