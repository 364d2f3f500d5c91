import Durare.Store.Portable

/-!
# Transfer/Exports — what an export lists

Both exporters list the rows that a table has for a workflow, sorted by the rest of the key
(`lookup_own`), and the workflows below a root.  Since a row has one parent, no workflow is listed
twice (`nodup_listed`), and every one that is listed has a row (`exists_row_of_listed`).
-/

namespace Durare

open List

/-! ## The rows of a workflow -/

section

variable {κ α β : Type} [DecidableEq κ] {t : Table (String × κ) α} {id : String}
  {le : (Σ _ : String × κ, α) → (Σ _ : String × κ, α) → Bool}

omit [DecidableEq κ] in
theorem nodup_own : (((t.entries.filter fun e => e.1.1 = id).mergeSort le).map
    fun e => e.1.2).Nodup := by
  have hperm := (t.entries.filter fun e => e.1.1 = id).mergeSort_perm le
  refine ((hperm.map fun e => e.1.2).nodup_iff).mpr ?_
  have hkeys : ((t.entries.filter fun e => e.1.1 = id).map Sigma.fst).Nodup :=
    t.nodupKeys.sublist filter_sublist
  rw [List.Nodup, pairwise_map] at hkeys ⊢
  refine hkeys.imp_of_mem fun {a b} ha hb hab heq => hab (Prod.ext ?_ heq)
  have ha' := of_decide_eq_true (mem_filter.mp ha).2
  have hb' := of_decide_eq_true (mem_filter.mp hb).2
  exact ha'.trans hb'.symm

/-- What a table has for a workflow, listed, is what is looked up under its id. -/
theorem lookup_own (f : α → β) (k : κ) :
    (((t.entries.filter fun e => e.1.1 = id).mergeSort le).map fun e => (e.1.2, f e.2)).lookup k =
      (t.lookup (id, k)).map f := by
  refine Option.ext fun b => ?_
  have hnodup : ((((t.entries.filter fun e => e.1.1 = id).mergeSort le).map
      fun e => (e.1.2, f e.2)).map Prod.fst).Nodup := by
    rw [List.map_map]
    exact nodup_own
  rw [lookup_eq_some_iff_mem hnodup, mem_map, Option.map_eq_some_iff]
  constructor
  · rintro ⟨⟨⟨id', k'⟩, a⟩, hmem, heq⟩
    rw [mem_mergeSort, mem_filter] at hmem
    cases heq
    cases of_decide_eq_true hmem.2
    exact ⟨a, AList.mem_lookup_iff.mpr hmem.1, rfl⟩
  · rintro ⟨a, ha, rfl⟩
    refine ⟨⟨(id, k), a⟩, ?_, rfl⟩
    rw [mem_mergeSort, mem_filter]
    exact ⟨AList.mem_lookup_iff.mp ha, decide_eq_true rfl⟩

end

/-! ## The workflows below a root -/

section

variable {ρ : Type} {t : Table String ρ} {key : ρ → String} {up : ρ → Option String}
  {le : String → String → Bool} {x y : String}

theorem mem_children (hkeyed : ∀ id row, t.lookup id = some row → key row = id) :
    y ∈ ((t.values.filter fun w => up w = some x).map key).mergeSort le ↔
      ∃ row, t.lookup y = some row ∧ up row = some x := by
  rw [mem_mergeSort, mem_map]
  constructor
  · rintro ⟨row, hrow, rfl⟩
    obtain ⟨hvalue, hup⟩ := mem_filter.mp hrow
    obtain ⟨id, hid⟩ := AList.mem_values.mp hvalue
    exact ⟨row, hkeyed id row hid ▸ hid, of_decide_eq_true hup⟩
  · rintro ⟨row, hrow, hup⟩
    refine ⟨row, mem_filter.mpr ⟨AList.mem_values.mpr ⟨y, hrow⟩, decide_eq_true hup⟩, ?_⟩
    exact hkeyed y row hrow

theorem nodup_children (hkeyed : ∀ id row, t.lookup id = some row → key row = id) :
    (((t.values.filter fun w => up w = some x).map key).mergeSort le).Nodup := by
  refine (mergeSort_perm _ le).nodup_iff.mpr ?_
  exact (AList.nodup_map_values hkeyed).sublist (filter_sublist.map key)

end

section

variable {children : String → List String} {fuel : Nat} {id : String} {exportChildren : Bool}
  {ids : List String}

/-- The walk ends, unless the workflows below the root go round in a circle. -/
theorem exists_exportedIds
    (h : exportChildren = true → Acc (fun y x => Traversal.Below children x y) id) :
    ∃ fuel ids, exportedIds children fuel id exportChildren = some ids := by
  cases exportChildren with
  | false => exact ⟨0, [id], rfl⟩
  | true => exact Traversal.exists_collect (h rfl)

variable {ρ β : Type} {t : Table String ρ} {key : ρ → String} {up : ρ → Option String}
  {le : String → String → Bool}

/-- **No workflow is listed twice.** -/
theorem nodup_listed (hkeyed : ∀ id row, t.lookup id = some row → key row = id)
    (h : exportedIds (fun x => ((t.values.filter fun w => up w = some x).map key).mergeSort le) fuel
      id exportChildren = some ids) : ids.Nodup := by
  cases exportChildren with
  | false =>
    cases h
    exact nodup_singleton id
  | true =>
    refine Traversal.nodup_collect (fun x => nodup_children hkeyed) ?_ h
    intro x x' y hx hx'
    obtain ⟨row, hrow, hup⟩ := (mem_children hkeyed).mp hx
    obtain ⟨row', hrow', hup'⟩ := (mem_children hkeyed).mp hx'
    cases Option.some.inj (hrow.symm.trans hrow')
    exact Option.some.inj (hup.symm.trans hup')

/-- Every workflow that is listed has a row, if the root has one. -/
theorem exists_row_of_listed (hkeyed : ∀ id row, t.lookup id = some row → key row = id)
    (hroot : (t.lookup id).isSome)
    (h : exportedIds (fun x => ((t.values.filter fun w => up w = some x).map key).mergeSort le) fuel
      id exportChildren = some ids) {y : String} (hy : y ∈ ids) : ∃ row, t.lookup y = some row := by
  have hroot := Option.isSome_iff_exists.mp hroot
  cases exportChildren with
  | false =>
    cases h
    cases mem_singleton.mp hy
    exact hroot
  | true =>
    rcases Traversal.mem_collect h hy with hself | ⟨x, hx⟩
    · cases mem_singleton.mp hself
      exact hroot
    · obtain ⟨row, hrow, -⟩ := (mem_children hkeyed).mp hx
      exact ⟨row, hrow⟩

/-- Rows exported one by one: an id without a row is an error. -/
structure Exports (t : Table String ρ) (f : ρ → β) (look : String → Except Error β) : Prop where
  row : ∀ id row, t.lookup id = some row → look id = .ok (f row)
  missing : ∀ id, t.lookup id = none → ∃ e, look id = .error e

variable {f : ρ → β} {look : String → Except Error β}

theorem Exports.mapM_eq_ok (hlook : Exports t f look)
    (hkeyed : ∀ id row, t.lookup id = some row → key row = id) {out : List β}
    (h : ids.mapM look = .ok out) : ∃ rows : List ρ, rows.map key = ids ∧
      (∀ row ∈ rows, t.lookup (key row) = some row) ∧ out = rows.map f := by
  induction ids generalizing out with
  | nil =>
    cases h
    exact ⟨[], rfl, fun _ hrow => (by cases hrow), rfl⟩
  | cons id ids ih =>
    rw [mapM_cons] at h
    cases hrow : t.lookup id with
    | none =>
      obtain ⟨e, he⟩ := hlook.missing id hrow
      rw [he] at h
      cases h
    | some row =>
      obtain rfl : key row = id := hkeyed id row hrow
      rw [hlook.row _ row hrow] at h
      cases hrest : ids.mapM look with
      | error e =>
        rw [hrest] at h
        cases h
      | ok rest =>
        obtain ⟨rows, rfl, hlookup, rfl⟩ := ih hrest
        rw [hrest] at h
        cases h
        exact ⟨row :: rows, rfl, forall_mem_cons.mpr ⟨hrow, hlookup⟩, rfl⟩

theorem Exports.exists_mapM (hlook : Exports t f look)
    (hrows : ∀ y ∈ ids, ∃ row, t.lookup y = some row) : ∃ out, ids.mapM look = .ok out := by
  induction ids with
  | nil => exact ⟨[], rfl⟩
  | cons id ids ih =>
    obtain ⟨row, hrow⟩ := hrows id mem_cons_self
    obtain ⟨rest, hrest⟩ := ih fun y hy => hrows y (mem_cons_of_mem _ hy)
    refine ⟨f row :: rest, ?_⟩
    rw [mapM_cons, hlook.row id row hrow, hrest]
    rfl

end

theorem Memory.exports_exportRows {X : TextCodec} {g : Memory.Inner} :
    Exports g.workflows (Memory.exportOne X g) fun id => match g.workflows.lookup id with
      | some w => .ok (Memory.exportOne X g w)
      | none => .error (.nonExistentWorkflow id) where
  row id w h := by rw [h]
  missing id h := ⟨.nonExistentWorkflow id, by rw [h]⟩

end Durare
