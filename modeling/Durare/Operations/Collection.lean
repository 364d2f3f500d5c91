import Durare.Context.InMemory
import Durare.Engine.Runtime
import Durare.Operations.System

/-!
# Operations/Collection — garbage collection and work in flight

A collection deletes the terminal rows created before its cutoff, each with its steps, streams and
messages.  So everything stored under the id of a workflow in flight stays.  But such a workflow may
have recorded a finished child in its step log, and the child's row is judged by its own status and
age alone: once it is gone, a re-execution re-attaches to a child that does not exist and polls for
ever.

`leftAlone_iff` says that this is all: a collection leaves a workflow in flight undisturbed
exactly if it condemns none of the children in its step log.
-/

namespace Durare.Memory

open List

/-- The three statuses of work in flight. -/
def InFlight (status : Status) : Prop :=
  status = .pending ∨ status = .enqueued ∨ status = .delayed

/-- The step log of `id` names the child `child`. -/
def Records (g : Inner) (id child : String) : Prop :=
  ∃ seq row, g.steps.lookup (id, seq) = some row ∧ row.childWorkflowId = some child

/-- The collection finds the row terminal and older than its cutoff.  The millisecond before the
cutoff wraps around if the cutoff is the smallest `i64`. -/
def Condemned (cutoff threshold : Option Int) (g : Inner) (id : String) : Prop :=
  ∃ bound row, (resolveGcCutoff cutoff threshold g).1 = .ok (some bound) ∧
    g.workflows.lookup id = some row ∧ row.status.isTerminal = true ∧
    row.createdAt.timestampMillis ≤ i64 (bound - 1)

/-- Nothing that a re-execution of `id` reads has changed from `g` to `g'`: what is stored under its
id, and the children it has recorded. -/
structure LeftAlone (id : String) (g g' : Inner) : Prop where
  row : g'.workflows.lookup id = g.workflows.lookup id
  steps : ∀ seq, g'.steps.lookup (id, seq) = g.steps.lookup (id, seq)
  events : ∀ key, g'.events.lookup (id, key) = g.events.lookup (id, key)
  streams : ∀ key, g'.streams.lookup (id, key) = g.streams.lookup (id, key)
  messages : g'.notifications.filter (·.destinationId = id) =
    g.notifications.filter (·.destinationId = id)
  children : ∀ child, Records g id child → ∀ row, g.workflows.lookup child = some row →
    ∃ row', g'.workflows.lookup child = some row' ∧ row'.output = row.output

variable {g : Inner} {cutoff threshold : Option Int} {id : String}

/-! ## The victims -/

variable {row : WorkflowStatus}

theorem passes_victimFilter {bound : Int} :
    passes (victimFilter bound) [] row = true ↔
      row.status.isTerminal = true ∧ row.createdAt.timestampMillis ≤ i64 (bound - 1) := by
  have hstatus : (victimFilter bound).status.contains row.status = row.status.isTerminal := by
    cases hs : row.status <;> simp [victimFilter, Status.isTerminal]
  rw [← hstatus]
  simp [passes, victimFilter, anyOf, anyOfOpt, noneOr]

theorem listWorkflows_victims (bound : Int) (g : Inner) :
    (listWorkflows (victimFilter bound) g).1 =
      .ok (((g.workflows.values.filter (passes (victimFilter bound) [])).mergeSort fun a b =>
        a.createdAt ≤ b.createdAt).map (project (victimFilter bound))) := rfl

/-- **The victims are the condemned rows.** -/
theorem mem_victims (hg : WellKeyed g) :
    id ∈ victims cutoff threshold g ↔ Condemned cutoff threshold g id := by
  constructor
  · intro h
    unfold victims at h
    split at h
    · next bound hbound =>
        rw [listWorkflows_victims] at h
        obtain ⟨_, hrow, rfl⟩ := mem_map.mp h
        obtain ⟨row, hsorted, rfl⟩ := mem_map.mp hrow
        obtain ⟨hvalue, hpasses⟩ := mem_filter.mp (mem_mergeSort.mp hsorted)
        obtain ⟨k, hk⟩ := AList.mem_values.mp hvalue
        obtain ⟨hterminal, hold⟩ := passes_victimFilter.mp hpasses
        have hid : (project (victimFilter bound) row).id = k := hg k row hk
        exact ⟨bound, row, hbound, hid ▸ hk, hterminal, hold⟩
    · cases h
  · rintro ⟨bound, row, hbound, hrow, hterminal, hold⟩
    rw [victims, hbound]
    dsimp only
    rw [listWorkflows_victims]
    have hlisted : row ∈ (g.workflows.values.filter (passes (victimFilter bound) [])).mergeSort
        fun a b => a.createdAt ≤ b.createdAt :=
      mem_mergeSort.mpr (mem_filter.mpr
        ⟨AList.mem_values.mpr ⟨id, hrow⟩, passes_victimFilter.mpr ⟨hterminal, hold⟩⟩)
    have hid : (project (victimFilter bound) row).id = id := hg id row hrow
    exact mem_map.mpr ⟨_, mem_map_of_mem hlisted, hid⟩

/-! ## What stays -/

theorem not_condemned (hrow : g.workflows.lookup id = some row) (hflight : InFlight row.status) :
    ¬Condemned cutoff threshold g id := by
  rintro ⟨bound, row', -, hrow', hterminal, -⟩
  rw [hrow] at hrow'
  cases hrow'
  rcases hflight with hs | hs | hs
  all_goals
    rw [hs] at hterminal
    cases hterminal

/-- The row of an id that is not condemned stays. -/
theorem lookup_garbageCollect (hg : WellKeyed g) (h : ¬Condemned cutoff threshold g id) :
    (garbageCollect cutoff threshold g).2.workflows.lookup id = g.workflows.lookup id := by
  have hspared : id ∉ victims cutoff threshold g := fun hid => h ((mem_victims hg).mp hid)
  rw [garbageCollect_state, workflows_deleteWorkflows, AList.lookup_retain]
  simp [deleteTargets, hspared]

theorem lookup_garbageCollect_of_condemned (hg : WellKeyed g)
    (h : Condemned cutoff threshold g id) :
    (garbageCollect cutoff threshold g).2.workflows.lookup id = none := by
  have hvictim : id ∈ victims cutoff threshold g := (mem_victims hg).mpr h
  rw [garbageCollect_state, workflows_deleteWorkflows, AList.lookup_retain]
  simp [deleteTargets, hvictim]

/-- **A collection leaves a workflow in flight undisturbed exactly if it condemns none of the
children in its step log.** -/
theorem leftAlone_iff (hg : WellKeyed g) {row : WorkflowStatus}
    (hrow : g.workflows.lookup id = some row) (hflight : InFlight row.status)
    (cutoff threshold : Option Int) :
    LeftAlone id g (garbageCollect cutoff threshold g).2 ↔
      ∀ child, Records g id child → ¬Condemned cutoff threshold g child := by
  constructor
  · intro h child hchild hcondemned
    have hgone := lookup_garbageCollect_of_condemned hg hcondemned
    obtain ⟨_, row, -, hrow, -⟩ := hcondemned
    obtain ⟨row', hrow', -⟩ := h.children child hchild row hrow
    rw [hgone] at hrow'
    cases hrow'
  · intro h
    have hnot : ¬Condemned cutoff threshold g id := not_condemned hrow hflight
    have hspared : id ∉ victims cutoff threshold g := fun hid => hnot ((mem_victims hg).mp hid)
    refine ⟨lookup_garbageCollect hg hnot, ?_, ?_, ?_, ?_, ?_⟩
    · intro seq
      rw [garbageCollect_state, steps_deleteWorkflows, AList.lookup_retain]
      simp [deleteTargets, hspared]
    · intro key
      rw [garbageCollect_state]
      rfl
    · intro key
      rw [garbageCollect_state]
      simp [deleteWorkflows, AList.lookup_retain, hspared]
    · rw [garbageCollect_state]
      simp only [deleteWorkflows, filter_filter]
      refine filter_congr fun n _ => ?_
      by_cases hn : n.destinationId = id
      · simp [hn, hspared]
      · simp [hn]
    · intro child hchild row hrow
      exact ⟨row, (lookup_garbageCollect hg (h child hchild)).trans hrow, rfl⟩

/-! ## A child that is gone -/

/-- Nobody brings the row back. -/
def StaysAbsent (id : String) (w w' : World Inner) : Prop :=
  w.store.workflows.lookup id = none → w'.store.workflows.lookup id = none

/-- A handle that polls for a row that is not there. -/
def vainly (X : TextCodec) (id : String) : Proc.Judge Eff Answer (World Inner) where
  handle := (provider X).handle
  rely := StaysAbsent id
  guar _ _ _ _ := True

open Verb in
/-- **A handle of a workflow without a row never returns.** -/
theorem result_absent {X : TextCodec} {O : Type} [Serde O] {w w' : World Inner} {c : CtxState}
    {es : List (Proc.Event Eff Answer (World Inner))} {r : Except Error O × CtxState}
    (habsent : w.store.workflows.lookup id = none) :
    ¬Proc.Runs (provider X).handle (StaysAbsent id) (result O id c) w es r w' := by
  intro hrun
  let round : Except Error (Unit ⊕ O) → CtxState → World Inner → Prop := fun r _ w =>
    r = .ok (.inl ()) ∧ w.store.workflows.lookup id = none
  have hagain {c : CtxState} {w : World Inner} (hw : w.store.workflows.lookup id = none) :
      wp (vainly X id) (result.again O) round c w := by
    refine wp_perform fun w₁ hw₁ _ w₂ hsleep => ⟨trivial, rfl, ?_⟩
    cases hsleep
    exact hw₁ hw
  have hwp : wp (vainly X id) (result O id) (fun _ _ _ => False) c w := by
    refine wp_loop (fun _ _ w => w.store.workflows.lookup id = none) habsent
      fun _ c w hw => wp_mono (Q := round) ?_ ?_
    · rintro _ _ w' ⟨rfl, hw'⟩
      exact hw'
    · refine wp_bind (wp_attempt (wp_ask fun w₁ hw₁ r w₂ hr => ⟨trivial, ?_⟩))
      obtain ⟨rfl, rfl⟩ := handle_getWorkflowStatus hr
      have habsent' : w₂.store.workflows.lookup id = none := hw₁ hw
      rw [habsent']
      exact hagain habsent'
  obtain ⟨-, w₀, -, hfalse⟩ := Proc.wp_runs (J := vainly X id) (fun _ h => h)
    (fun h h' hw => h' (h hw)) hrun ⟨w, fun h => h, hwp⟩
  exact hfalse

/-! ## Instances -/

/-- A pending parent that has recorded a child, and the child has succeeded. -/
def finishedChild : Inner where
  workflows := AList.insert "c"
      { WorkflowStatus.new ⟨0⟩ "c" "child" .null .success "local" "" with
        output := some (.bool true), parentWorkflowId := some "p" }
    (AList.insert "p" (.new ⟨0⟩ "p" "parent" .null .pending "local" "") ∅)
  steps := AList.insert ("p", 0) { name := "child", childWorkflowId := some "c" } ∅

theorem wellKeyed_finishedChild : WellKeyed finishedChild := by
  refine AList.forall_lookup_insert (AList.forall_lookup_insert ?_ rfl) rfl
  intro k row hrow
  cases hrow

/-- A collection whose cutoff is the child's own creation spares it. -/
theorem leftAlone_iff_spared :
    LeftAlone "p" finishedChild (garbageCollect (some 0) none finishedChild).2 := by
  have hp : finishedChild.workflows.lookup "p" =
      some (.new ⟨0⟩ "p" "parent" .null .pending "local" "") := rfl
  refine (leftAlone_iff wellKeyed_finishedChild hp (.inl rfl) (some 0) none).mpr ?_
  rintro child - ⟨bound, row, hbound, hrow, -, hold⟩
  have hcreated : ∀ k row, finishedChild.workflows.lookup k = some row → row.createdAt = ⟨0⟩ := by
    refine AList.forall_lookup_insert (AList.forall_lookup_insert ?_ rfl) rfl
    intro k row hrow
    cases hrow
  rw [hcreated child row hrow] at hold
  cases hbound
  exact absurd hold (by decide)

/-- **A collection takes the child of a pending parent**: its result was recorded and read before,
and afterwards a re-execution of the parent waits for it for ever. -/
theorem collects_recorded_child :
    (∃ row, finishedChild.workflows.lookup "p" = some row ∧ row.status = .pending) ∧
    Records finishedChild "p" "c" ∧
    (∃ row, finishedChild.workflows.lookup "c" = some row ∧ row.output = some (.bool true)) ∧
    (garbageCollect (some 1) none finishedChild).2.workflows.lookup "c" = none ∧
    ∀ X es r w', ¬Proc.Runs (provider X).handle (StaysAbsent "c") (result Bool "c" {})
      ⟨(garbageCollect (some 1) none finishedChild).2, ⟨1000000⟩⟩ es r w' := by
  have hgone : (garbageCollect (some 1) none finishedChild).2.workflows.lookup "c" = none :=
    lookup_garbageCollect_of_condemned wellKeyed_finishedChild
      ⟨1, _, rfl, rfl, rfl, by decide⟩
  exact ⟨⟨_, rfl, rfl⟩, ⟨0, _, rfl, rfl⟩, ⟨_, rfl, rfl⟩, hgone,
    fun X es r w' => result_absent hgone⟩

end Durare.Memory
