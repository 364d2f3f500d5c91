import Durare.Machinery.Traversal
import Durare.Operations.System

/-!
# Operations/Deletion — deleting workflows with their descendants

A recursive delete grows a list of targets: it goes along the list and appends the children of each
target that are no targets yet.  It looks before it appends, so it ends however the parent links
run — in circles, to ids without a row, from ids given twice — and what it deletes is exactly the
given ids with everything below them (`delete_descendants`).
-/

namespace Durare.Memory

open List

/-! ## Parent links -/

/-- The row of `child` names `parent` as its parent. -/
def ParentOf (g : Inner) (parent child : String) : Prop :=
  ∃ row, g.workflows.lookup child = some row ∧ row.parentWorkflowId = some parent

/-- `id` is reached from one of `ids` through zero or more parent links. -/
def Descends (g : Inner) (ids : List String) (id : String) : Prop :=
  ∃ root ∈ ids, Relation.ReflTransGen (ParentOf g) root id

/-- The rows whose parent is `parent`, by their keys. -/
def childIds (g : Inner) (parent : String) : List String :=
  (g.workflows.entries.filter fun e => e.2.parentWorkflowId = some parent).map (·.1)

/-- The worklist of a recursive delete, round by round: it ends with the list `out`. -/
abbrev Expands (g : Inner) : List String → List String → Prop := Traversal.Spreads (childIds g) 0

variable {g : Inner} {ids : List String} {id parent : String}

theorem mem_childIds : id ∈ childIds g parent ↔ ParentOf g parent id := by
  simp only [childIds, mem_map, mem_filter, decide_eq_true_eq]
  constructor
  · rintro ⟨⟨id, row⟩, ⟨hmem, hparent⟩, rfl⟩
    exact ⟨row, AList.mem_lookup_iff.mpr hmem, hparent⟩
  · rintro ⟨row, hrow, hparent⟩
    exact ⟨⟨id, row⟩, ⟨AList.mem_lookup_iff.mp hrow, hparent⟩, rfl⟩

theorem nodup_childIds (parent : String) : (childIds g parent).Nodup :=
  g.workflows.nodupKeys.sublist filter_sublist

/-! ## The worklist -/

theorem expandTargets_eq_spread (g : Inner) (fuel i : Nat) (targets : List String) :
    expandTargets g fuel i targets = Traversal.spread (childIds g) fuel i targets := by
  induction fuel generalizing i targets with
  | zero => rfl
  | succ fuel ih =>
    unfold expandTargets Traversal.spread
    cases targets[i]? with
    | none => rfl
    | some parent =>
      have hnew : (g.workflows.entries.filter fun e =>
          e.2.parentWorkflowId = some parent && !targets.contains e.1).map (·.1) =
          (childIds g parent).filter (· ∉ targets) := by
        rw [childIds, filter_map, filter_filter]
        congr 1
        refine filter_congr fun e _ => ?_
        simp [Bool.and_comm]
      dsimp only
      rw [hnew]
      exact ih _ _

/-- **The worklist ends**, and the targets are what it ends with. -/
theorem expands_deleteTargets (ids : List String) (g : Inner) :
    Expands g ids (deleteTargets ids true g) := by
  have htargets : deleteTargets ids true g =
      Traversal.spread (childIds g) (ids.length + g.workflows.entries.length + 1) 0 ids :=
    expandTargets_eq_spread g _ 0 ids
  rw [htargets]
  refine Traversal.spreads_spread nodup_childIds (U := g.workflows.keys.toFinset) ?_ ?_
  · intro parent child hchild
    obtain ⟨row, hrow, -⟩ := mem_childIds.mp hchild
    exact mem_toFinset.mpr (AList.mem_keys.mp (AList.lookup_isSome.mp (by rw [hrow]; rfl)))
  · have hrest : (g.workflows.keys.toFinset \ ids.toFinset).card ≤ g.workflows.entries.length :=
      calc (g.workflows.keys.toFinset \ ids.toFinset).card
          ≤ g.workflows.keys.toFinset.card := Finset.card_le_card Finset.sdiff_subset
        _ ≤ g.workflows.keys.length := toFinset_card_le _
        _ = g.workflows.entries.length := length_map _
    omega

theorem mem_deleteTargets : id ∈ deleteTargets ids true g ↔ Descends g ids id := by
  have hbelow : Traversal.Below (childIds g) = ParentOf g :=
    funext fun _ => funext fun _ => propext mem_childIds
  rw [(expands_deleteTargets ids g).mem_iff, hbelow]
  rfl

/-! ## What a delete leaves -/

/-- **A recursive delete removes exactly the descendants.**  Its worklist ends; a row is left
exactly if it is not reached from the given ids; and everything else that is stored under an id that
is not reached is left as it was. -/
theorem delete_descendants (g : Inner) (ids : List String) :
    (∃ targets, Expands g ids targets ∧ ∀ id, id ∈ targets ↔ Descends g ids id) ∧
    (deleteWorkflows ids true g).1 = .ok () ∧
    (∀ id row, (deleteWorkflows ids true g).2.workflows.lookup id = some row ↔
      g.workflows.lookup id = some row ∧ ¬Descends g ids id) ∧
    ∀ id, ¬Descends g ids id →
      (∀ seq, (deleteWorkflows ids true g).2.steps.lookup (id, seq) = g.steps.lookup (id, seq)) ∧
      (∀ key, (deleteWorkflows ids true g).2.events.lookup (id, key) = g.events.lookup (id, key)) ∧
      (∀ key, (deleteWorkflows ids true g).2.streams.lookup (id, key) =
        g.streams.lookup (id, key)) ∧
      (deleteWorkflows ids true g).2.notifications.filter (·.destinationId = id) =
        g.notifications.filter (·.destinationId = id) := by
  refine ⟨⟨_, expands_deleteTargets ids g, fun id => mem_deleteTargets⟩, rfl, ?_, ?_⟩
  · intro id row
    rw [workflows_deleteWorkflows, AList.lookup_retain, ← mem_deleteTargets]
    by_cases hid : id ∈ deleteTargets ids true g
    · simp [hid]
    · simp [hid]
  · intro id hid
    rw [← mem_deleteTargets] at hid
    refine ⟨fun seq => ?_, fun key => rfl, fun key => ?_, ?_⟩
    · rw [steps_deleteWorkflows, AList.lookup_retain, if_pos (by simpa using hid)]
    · rw [streams_deleteWorkflows, AList.lookup_retain, if_pos (by simpa using hid)]
    · rw [notifications_deleteWorkflows, filter_filter]
      refine filter_congr fun n _ => ?_
      by_cases hn : n.destinationId = id
      · simp [hn, hid]
      · simp [hn]

end Durare.Memory
