import Durare.Engine.RowSteps
import Durare.Store.Transfer

/-!
# Conductor/ForkFlags — how a listing shows forks, and how it filters by them

`WasForkedFrom` of an entry says whether the workflow is a fork.  The filter of the same name asks
whether other workflows were forked from it.  A workflow that was forked is listed by the filter and
shown without the flag.
-/

namespace Durare

open List

open Memory

/-- A stored payload as text, if it is there and not null. -/
def payload (X : TextCodec) : Option Value → Option Value
  | some v => if v.isNull then none else some (.string (X.toText v))
  | none => none

def epochMsStr (ms : Int) : Value := .string (toString ms)

/-- A text that is left out if it is empty. -/
def unlessEmpty (text : String) : Option Value := if text.isEmpty then none else some (.string text)

/-- The fields of an entry; a field without a value is left out. -/
def formatListWorkflow (X : TextCodec) (ws : WorkflowStatus) : List (String × Value) :=
  ([("WorkflowUUID", some (.string ws.id)),
    ("Status", unlessEmpty ws.status.text),
    ("WorkflowName", unlessEmpty ws.name),
    ("AuthenticatedUser", ws.authenticatedUser.map .string),
    ("AssumedRole", ws.assumedRole.map .string),
    ("AuthenticatedRoles", if ws.authenticatedRoles.isEmpty then none
      else some (.string (X.toText (.array (ws.authenticatedRoles.map .string))))),
    ("Input", payload X (some ws.input)),
    ("Output", payload X ws.output),
    ("Error", ws.error.map .string),
    ("CreatedAt", some (epochMsStr ws.createdAt.timestampMillis)),
    ("UpdatedAt", some (epochMsStr ws.updatedAt.timestampMillis)),
    ("QueueName", ws.queueName.map .string),
    ("QueuePartitionKey", ws.queuePartitionKey.map .string),
    ("DeduplicationID", ws.dedupId.map .string),
    ("Priority", some (.string (toString ws.priority))),
    ("ApplicationVersion", unlessEmpty ws.appVersion),
    ("ExecutorID", unlessEmpty ws.executorId),
    ("WorkflowTimeoutMS", (ws.timeoutMs.filter (0 < ·)).map epochMsStr),
    ("WorkflowDeadlineEpochMS", ws.deadlineMs.map epochMsStr),
    ("ForkedFrom", ws.forkedFrom.map .string),
    ("WasForkedFrom", some (.bool ws.forkedFrom.isSome)),
    ("ParentWorkflowID", ws.parentWorkflowId.map .string),
    ("DequeuedAt", if ws.status = .pending then ws.startedAtMs.map epochMsStr else none),
    ("DelayUntilEpochMS", ws.delayUntilMs.map epochMsStr),
    ("CompletedAt", ws.completedAtMs.map epochMsStr)] : List (String × Option Value)).filterMap
      fun f => f.2.map (f.1, ·)

theorem wasForkedFrom_mem (X : TextCodec) (ws : WorkflowStatus) (v : Value) :
    ("WasForkedFrom", v) ∈ formatListWorkflow X ws ↔ v = .bool ws.forkedFrom.isSome := by
  rw [formatListWorkflow, mem_filterMap]
  simp only [mem_cons, not_mem_nil, or_false, exists_eq_or_imp, exists_eq_left,
    Option.map_eq_some_iff, Prod.mk.injEq, String.reduceEq, false_and, and_false, exists_false,
    false_or, true_and, Option.some.injEq]
  exact ⟨fun h => (by simpa using h : _ = v).symm, fun h => by simp [h]⟩

/-- Every entry of a listing by the flag shows it. -/
def FlagsAgree (X : TextCodec) (g : Inner) : Prop :=
  ∀ filter b, filter.wasForkedFrom = some b → ∃ rows, (listWorkflows filter g).1 = .ok rows ∧
    ∀ ws ∈ rows, ∀ v, ("WasForkedFrom", v) ∈ formatListWorkflow X ws ↔ v = .bool b

/-- Other workflows were forked from this one. -/
def IsSource (g : Inner) (id : String) : Prop := ∃ v ∈ g.workflows.values, v.forkedFrom = some id

theorem contains_forkSources {g : Inner} {id : String} :
    (g.workflows.values.filterMap (·.forkedFrom)).contains id = true ↔ IsSource g id := by
  simp [IsSource]

/-- The rows a listing by the flag keeps. -/
theorem source_of_passes {filter : ListFilter} {b : Bool} (hb : filter.wasForkedFrom = some b)
    {g : Inner} {w : WorkflowStatus}
    (h : passes filter (g.workflows.values.filterMap (·.forkedFrom)) w = true) :
    IsSource g w.id ↔ b = true := by
  have hflag : ((g.workflows.values.filterMap (·.forkedFrom)).contains w.id == b) = true := by
    simp only [passes, Bool.and_eq_true, hb, noneOr] at h
    exact h.1.1.1.1.1.1.1.1.2
  rw [← contains_forkSources, beq_iff_eq.mp hflag]

/-- **The flags agree exactly if a workflow is a fork exactly when others were forked from it.** -/
theorem fork_flags_iff (X : TextCodec) (g : Inner) : FlagsAgree X g ↔
    ∀ w ∈ g.workflows.values, w.forkedFrom.isSome = true ↔ IsSource g w.id := by
  constructor
  · intro h w hw
    obtain ⟨rows, hrows, hflags⟩ := h
      { wasForkedFrom := some ((g.workflows.values.filterMap (·.forkedFrom)).contains w.id) } _ rfl
    have hlisted : w ∈ rows := by
      cases hrows
      simp [hw, passes, anyOf, anyOfOpt, noneOr, project]
    have hsame := (hflags w hlisted _).mp ((wasForkedFrom_mem X w _).mpr rfl)
    rw [← contains_forkSources, Value.bool.inj hsame]
  · intro h filter b hb
    obtain ⟨rows, hrows, hsub⟩ := listWorkflows_rows filter g
    rw [hb] at hsub
    refine ⟨_, hrows, fun ws hws v => ?_⟩
    obtain ⟨w, hw, rfl⟩ := mem_map.mp hws
    obtain ⟨hmem, hpass⟩ := mem_filter.mp (hsub.subset hw)
    have hflag : w.forkedFrom.isSome = b :=
      Bool.eq_iff_iff.mpr ((h w hmem).trans (source_of_passes hb hpass))
    rw [wasForkedFrom_mem]
    exact hflag ▸ Iff.rfl

/-- `w` is started, and forked as `f`. -/
def forkedOnce : Inner :=
  (forkWorkflow ⟨0⟩ { originalId := "w", newId := "f", startStep := 0, queueName := "q" }
    (insertWorkflowStatus (.new ⟨0⟩ "w" "report" .null .pending "local" "") {}).2).2

/-- **A workflow that was forked is not shown as one, though it was asked for.** -/
theorem forked_shown_as_not : ∃ ws rows,
    (listWorkflows { wasForkedFrom := some true } forkedOnce).1 = .ok rows ∧ ws ∈ rows ∧
      ("WasForkedFrom", .bool false) ∈ formatListWorkflow noText ws := by
  have hrow : forkedOnce.workflows.lookup "w" =
      some (.new ⟨0⟩ "w" "report" .null .pending "local" "") := rfl
  refine ⟨_, _, rfl, mem_map.mpr ⟨_, mem_mergeSort.mpr (mem_filter.mpr
    ⟨AList.mem_values.mpr ⟨"w", hrow⟩, rfl⟩), rfl⟩, (wasForkedFrom_mem _ _ _).mpr rfl⟩

end Durare
