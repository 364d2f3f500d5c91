import Durare.Engine.RowSteps
import Durare.Operations.Deletion
import Durare.Transfer.Exports

/-!
# Transfer/Descendants — exporting a workflow with its descendants

An export takes a parent off a stack and puts its children there, and keeps no record of the parents
it has met.  A row has one parent, so whatever is below the root is met once — unless the root is
below itself, and then the walk goes round for ever.

`listsDescendants_iff`: the export ends, with the root first and each descendant once, exactly if
the root does not descend from itself.  Ids are reused: a workflow is deleted without its children,
and one of them starts a workflow under the id that is free (`export_goes_round`).
-/

namespace Durare.Memory

/-- **The export ends with the root first and then each of its descendants once.** -/
def ListsDescendants (X : TextCodec) (g : Inner) (root : String) : Prop :=
  ∃ fuel exported, exportWorkflow X fuel root true g = some (.ok exported) ∧
    ∃ rest, exported.map ExportedWorkflow.id = root :: rest ∧ (root :: rest).Nodup ∧
      ∀ id, id ∈ root :: rest ↔ Relation.ReflTransGen (ParentOf g) root id

variable {X : TextCodec} {g : Inner} {root id : String}

theorem ParentOf.unique {parent parent' : String} (h : ParentOf g parent id)
    (h' : ParentOf g parent' id) : parent = parent' := by
  obtain ⟨row, hrow, hparent⟩ := h
  obtain ⟨row', hrow', hparent'⟩ := h'
  cases Option.some.inj (hrow.symm.trans hrow')
  exact Option.some.inj (hparent.symm.trans hparent')

theorem below_childrenOf (hg : WellKeyed g) : Traversal.Below (childrenOf g) = ParentOf g :=
  funext fun _ => funext fun _ => propext (mem_children hg)

/-- The walk from the root ends exactly if the root does not descend from itself. -/
theorem acc_iff_not_below_self :
    Acc (fun child parent => ParentOf g parent child) root ↔
      ¬Relation.TransGen (ParentOf g) root root := by
  refine ⟨Traversal.no_circle_of_acc, fun hcircle => ?_⟩
  refine Traversal.acc_of_no_circle g.workflows.keys.toFinset ?_ fun id hbelow hid => ?_
  · rintro parent child ⟨row, hrow, -⟩
    exact List.mem_toFinset.mpr (AList.mem_keys.mp (AList.lookup_isSome.mp (by rw [hrow]; rfl)))
  · exact hcircle (Traversal.circle_of_below ParentOf.unique hbelow hid)

/-- **The export lists the descendants of the root exactly if the root is not one of them.** -/
theorem listsDescendants_iff (hg : WellKeyed g) (hroot : (g.workflows.lookup root).isSome) :
    ListsDescendants X g root ↔ ¬Relation.TransGen (ParentOf g) root root := by
  rw [← acc_iff_not_below_self, ← below_childrenOf hg]
  constructor
  · rintro ⟨fuel, exported, hexport, -⟩
    obtain ⟨ids, hids, -⟩ := Option.map_eq_some_iff.mp hexport
    exact Traversal.acc_of_collect hids (List.mem_singleton_self root)
  · intro hacc
    obtain ⟨fuel, ids, hids⟩ : ∃ fuel ids, exportedIds (childrenOf g) fuel root true = some ids :=
      exists_exportedIds fun _ => hacc
    obtain ⟨exported, hexported⟩ := (exports_exportRows (X := X)).exists_mapM
      fun y hy => exists_row_of_listed hg hroot hids hy
    obtain ⟨rows, hrows, -, rfl⟩ := exports_exportRows.mapM_eq_ok hg hexported
    obtain ⟨rest, rfl⟩ := Traversal.prefix_collect hids
    refine ⟨fuel, rows.map (exportOne X g), ?_, rest, ?_, nodup_listed hg hids, fun id => ?_⟩
    · rw [exportWorkflow, hids]
      exact congrArg some hexported
    · rw [List.map_map]
      exact hrows
    · rw [← below_childrenOf hg]
      exact Traversal.mem_collect_iff hids

/-! ## Instances -/

/-- A row of the workflow `id`, started by `parent`. -/
def relative (parent : Option String) (id : String) : WorkflowStatus :=
  { WorkflowStatus.new ⟨0⟩ id "pay" .null .pending "local" "" with parentWorkflowId := parent }

/-- A workflow that started another one. -/
def family : Inner where
  workflows := AList.insert "c" (relative (some "p") "c") (AList.insert "p" (relative none "p") ∅)

theorem wellKeyed_family : WellKeyed family :=
  AList.forall_lookup_insert (AList.forall_lookup_insert (fun _ _ h => nomatch h) rfl) rfl

/-- The parent exported with its child. -/
theorem listsDescendants_iff_family : ListsDescendants noText family "p" := by
  refine (listsDescendants_iff wellKeyed_family rfl).mpr fun hcircle => ?_
  obtain ⟨parent, -, row, hrow, hparent⟩ := Relation.TransGen.tail'_iff.mp hcircle
  cases hrow
  cases hparent

/-- The parent was deleted without its child, and the child started a workflow under its id. -/
def entangled : Inner where
  workflows := AList.insert "p" (relative (some "c") "p")
    (AList.insert "c" (relative (some "p") "c") ∅)

theorem reaches_entangled : Reaches noText (fun _ _ => True) {} entangled := by
  let orphaned : Inner := { workflows := AList.insert "c" (relative (some "p") "c") ∅ }
  let alone : Inner := { workflows := AList.insert "p" (relative none "p") ∅ }
  have hstart : Step noText (fun _ _ => True) {} alone :=
    ⟨.call (.insertWorkflowStatus (relative none "p")), ⟨0⟩, "", trivial, rfl⟩
  have hchild : Step noText (fun _ _ => True) alone family :=
    ⟨.call (.insertWorkflowStatus (relative (some "p") "c")), ⟨0⟩, "", trivial, rfl⟩
  have hdelete : Step noText (fun _ _ => True) family orphaned :=
    ⟨.call (.deleteWorkflows ["p"] false), ⟨0⟩, "", trivial, rfl⟩
  have hreuse : Step noText (fun _ _ => True) orphaned entangled :=
    ⟨.call (.insertWorkflowStatus (relative (some "c") "p")), ⟨0⟩, "", trivial, rfl⟩
  exact (((Relation.ReflTransGen.single hstart).tail hchild).tail hdelete).tail hreuse

/-- **The export of a workflow that descends from itself never ends**, whatever the number of
rounds. -/
theorem export_goes_round : Reaches noText (fun _ _ => True) {} entangled ∧
    (entangled.workflows.lookup "p").isSome ∧
    ∀ fuel, exportWorkflow noText fuel "p" true entangled = none := by
  refine ⟨reaches_entangled, rfl, fun fuel => ?_⟩
  have hkeyed : WellKeyed entangled :=
    AList.forall_lookup_insert (AList.forall_lookup_insert (fun _ _ h => nomatch h) rfl) rfl
  have hcircle : Relation.TransGen (ParentOf entangled) "p" "p" :=
    .tail (.single ⟨_, rfl, rfl⟩) ⟨_, rfl, rfl⟩
  cases hids : exportedIds (childrenOf entangled) fuel "p" true with
  | none =>
    rw [exportWorkflow, hids]
    rfl
  | some ids =>
    have hacc := Traversal.acc_of_collect hids (List.mem_singleton_self "p")
    rw [below_childrenOf hkeyed] at hacc
    exact absurd hcircle (Traversal.no_circle_of_acc hacc)

end Durare.Memory
