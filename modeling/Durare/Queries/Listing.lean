import Durare.Engine.RowSteps
import Durare.Machinery.Paging
import Durare.Queries.Mirrors

/-!
# Queries/Listing — one filter in two backends

Both backends list workflows in the order of their creation, filter them and show a page.  They
check most of a filter in the same way (`passesRest`), and differ in four places: a prefix of ids is
a pattern for SQLite, whose `LIKE` knows wildcards and ignores the case of ASCII letters; whether a
workflow was forked from is a column there, and derived from the other rows in memory; an offset
without a limit is a syntax error there; and a negative limit shows everything there, and nothing in
memory.

`listings_agree_iff`: over the same rows, created in different milliseconds, the two list the same
ids in the same order exactly if none of this makes a difference on the page (`ListsAlike`).
-/

namespace Durare

open List Option

variable {g : Memory.Inner} {db : Sqlite.Db} {filter : ListFilter}

/-! ## What a filter lets pass -/

/-- The checks the backends make in the same way: all but the prefixes, and whether a workflow was
forked from. -/
def passesRest (filter : ListFilter) (w : WorkflowStatus) : Bool :=
  Memory.passes { filter with workflowIdPrefix := [], wasForkedFrom := none } [] w

/-- The workflow is listed by the in-memory backend, page apart. -/
def shownInMemory (filter : ListFilter) (g : Memory.Inner) (w : WorkflowStatus) : Bool :=
  passesRest filter w &&
  (filter.workflowIdPrefix.isEmpty || filter.workflowIdPrefix.any fun p => w.id.startsWith p) &&
  filter.wasForkedFrom.all fun wf => g.workflows.values.any (·.forkedFrom == some w.id) == wf

/-- The workflow is listed by SQLite, page apart. -/
def shownInSqlite (filter : ListFilter) (db : Sqlite.Db) (w : WorkflowStatus) : Bool :=
  passesRest filter w &&
  (filter.workflowIdPrefix.isEmpty || filter.workflowIdPrefix.any fun p =>
    Sqlite.like (p.toList ++ ['%']) w.id.toList) &&
  filter.wasForkedFrom.all fun wf =>
    (db.workflowStatus.lookup w.id).any (·.wasForkedFrom) == wf

theorem passes_eq_shownInMemory (filter : ListFilter) (g : Memory.Inner) (w : WorkflowStatus) :
    Memory.passes filter (if filter.wasForkedFrom.isSome then
      g.workflows.values.filterMap (·.forkedFrom) else []) w = shownInMemory filter g w := by
  have hsources : Memory.noneOr filter.wasForkedFrom (fun wf =>
      (if filter.wasForkedFrom.isSome then g.workflows.values.filterMap (·.forkedFrom)
        else []).contains w.id == wf) = filter.wasForkedFrom.all fun wf =>
          g.workflows.values.any (·.forkedFrom == some w.id) == wf := by
    cases filter.wasForkedFrom with
    | none => rfl
    | some wf =>
      have hany : (g.workflows.values.filterMap (·.forkedFrom)).contains w.id =
          g.workflows.values.any (·.forkedFrom == some w.id) := by
        rw [Bool.eq_iff_iff]
        simp [mem_filterMap]
      rw [Memory.noneOr, all_some, all_some, isSome_some, if_pos rfl, hany]
  rw [Memory.passes, hsources, shownInMemory, passesRest, Memory.passes]
  simp only [isEmpty_nil, Bool.true_or, Bool.and_true, Memory.noneOr, all_none]
  ac_rfl

theorem passes_eq_shownInSqlite {w : WorkflowStatus} {r : Sqlite.StatusRow} (hrow : RowMirrors w r)
    (hr : db.workflowStatus.lookup w.id = some r) :
    Sqlite.passes filter r = shownInSqlite filter db w := by
  rw [Sqlite.passes, hrow.id, hrow.name, hrow.status, hrow.queueName, hrow.appVersion,
    hrow.executorId, hrow.authenticatedUser, hrow.forkedFrom, hrow.parentWorkflowId,
    hrow.createdAt, hrow.completedAtMs, hrow.startedAtMs, shownInSqlite, hr, passesRest,
    Memory.passes]
  simp only [isEmpty_nil, Bool.true_or, Bool.and_true, Memory.noneOr, all_none,
    any_some, Memory.anyOf, Memory.anyOfOpt, Sqlite.anyOf, Sqlite.anyOfOpt]
  ac_rfl

/-! ## The order of a listing -/

/-- No two rows were created in one millisecond. -/
def DistinctTimes (g : Memory.Inner) : Prop := ∀ id id' w w', g.workflows.lookup id = some w →
  g.workflows.lookup id' = some w' →
  w.createdAt.timestampMillis = w'.createdAt.timestampMillis → id = id'

/-- The rows in the order of their creation, or the other way round. -/
def inOrder (filter : ListFilter) (g : Memory.Inner) : List WorkflowStatus :=
  let sorted := g.workflows.values.mergeSort fun a b => a.createdAt ≤ b.createdAt
  if filter.sortDesc then sorted.reverse else sorted

/-- One time is listed before the other. -/
def NotAfter (desc : Bool) (t t' : Int) : Prop := if desc then t' ≤ t else t ≤ t'

/-- What a listing is compared by. -/
def stamp (w : WorkflowStatus) : String × Int := (w.id, w.createdAt.timestampMillis)

theorem NotAfter.antisymm {desc : Bool} {t t' : Int} (h : NotAfter desc t t')
    (h' : NotAfter desc t' t) : t = t' := by
  cases desc
  · exact Int.le_antisymm h h'
  · exact Int.le_antisymm h' h

theorem pairwise_sorted (desc : Bool) (rows : List WorkflowStatus) :
    (if desc then (rows.mergeSort fun a b => a.createdAt ≤ b.createdAt).reverse
      else rows.mergeSort fun a b => a.createdAt ≤ b.createdAt).Pairwise fun a b =>
        NotAfter desc a.createdAt.timestampMillis b.createdAt.timestampMillis := by
  cases desc with
  | false => exact pairwise_mergeSort_createdAt rows
  | true => exact pairwise_reverse.mpr (pairwise_mergeSort_createdAt rows)

theorem inOrder_perm (filter : ListFilter) (g : Memory.Inner) :
    (inOrder filter g).Perm g.workflows.values := by
  have hsorted := mergeSort_perm g.workflows.values fun a b => a.createdAt ≤ b.createdAt
  unfold inOrder
  cases filter.sortDesc with
  | false => exact hsorted
  | true => exact (reverse_perm _).trans hsorted

theorem nodup_ids_inOrder (hg : Memory.WellKeyed g) (filter : ListFilter) :
    ((inOrder filter g).map (·.id)).Nodup := by
  have hids : (g.workflows.values.map (·.id)).Nodup := AList.nodup_map_values hg
  exact ((inOrder_perm filter g).map (·.id)).nodup_iff.mpr hids

/-- **Rows in order are the rows of `inOrder`**, whichever way they were sorted. -/
theorem eq_map_stamp_inOrder (hg : Memory.WellKeyed g) (htimes : DistinctTimes g)
    {p : WorkflowStatus → Bool} {stamps : List (String × Int)}
    (hperm : stamps.Perm ((g.workflows.values.filter p).map stamp))
    (hsorted : stamps.Pairwise fun a b => NotAfter filter.sortDesc a.2 b.2) :
    stamps = ((inOrder filter g).filter p).map stamp := by
  have horder : (((inOrder filter g).filter p).map stamp).Pairwise fun a b =>
      NotAfter filter.sortDesc a.2 b.2 :=
    pairwise_map.mpr ((pairwise_sorted filter.sortDesc _).filter p)
  have hall := hperm.trans (((inOrder_perm filter g).filter p).map stamp).symm
  refine List.Perm.eq_of_pairwise (fun a b ha hb hab hba => ?_) hsorted horder hall
  -- Both are stamps of rows; with one time they are of the same row.
  obtain ⟨w, hw, rfl⟩ := mem_map.mp (hperm.subset ha)
  obtain ⟨w', hw', rfl⟩ := mem_map.mp hb
  obtain ⟨id, hid⟩ := AList.mem_values.mp (mem_filter.mp hw).1
  have hin' := (inOrder_perm filter g).subset (mem_filter.mp hw').1
  obtain ⟨id', hid'⟩ := AList.mem_values.mp hin'
  have htime := hab.antisymm hba
  have hsame : id = id' := htimes id id' w w' hid hid' htime
  exact Prod.ext (by rw [stamp, stamp, hg id w hid, hg id' w' hid', hsame]) htime

/-! ## Pages -/

/-- How many rows a page skips; a negative offset is none. -/
def skipped (filter : ListFilter) : Nat := (filter.offset.getD 0).toNat

/-- The page the in-memory backend shows. -/
def memoryPage {α : Type} (filter : ListFilter) (rows : List α) : List α :=
  match filter.limit with
  | some lim => (rows.drop (skipped filter)).take lim.toNat
  | none => rows.drop (skipped filter)

/-- The page SQLite shows. -/
def sqlitePage {α : Type} (filter : ListFilter) (rows : List α) : List α :=
  Sqlite.limitRows filter.limit (rows.drop (skipped filter))

variable {α : Type}

theorem map_memoryPage {β : Type} (f : α → β) (rows : List α) :
    (memoryPage filter rows).map f = memoryPage filter (rows.map f) := by
  unfold memoryPage
  cases filter.limit with
  | none => exact map_drop
  | some lim => rw [map_take, map_drop]

theorem map_sqlitePage {β : Type} (f : α → β) (rows : List α) :
    (sqlitePage filter rows).map f = sqlitePage filter (rows.map f) := by
  unfold sqlitePage Sqlite.limitRows
  cases filter.limit with
  | none => exact map_drop
  | some lim =>
    dsimp only
    split
    · exact map_drop
    · rw [map_take, map_drop]

theorem memoryPage_sublist (filter : ListFilter) (rows : List α) :
    (memoryPage filter rows).Sublist rows := by
  unfold memoryPage
  split
  · exact (take_sublist _ _).trans (drop_sublist _ _)
  · exact drop_sublist _ _

theorem sqlitePage_sublist (filter : ListFilter) (rows : List α) :
    (sqlitePage filter rows).Sublist rows := by
  unfold sqlitePage Sqlite.limitRows
  split
  · split
    · exact drop_sublist _ _
    · exact (take_sublist _ _).trans (drop_sublist _ _)
  · exact drop_sublist _ _

/-- **The ids the in-memory backend lists.** -/
theorem memory_ids (hg : Memory.WellKeyed g) (htimes : DistinctTimes g) (filter : ListFilter) :
    (Memory.listWorkflows filter g).1.map (List.map (·.id)) =
      .ok ((memoryPage filter
        ((inOrder filter g).filter (shownInMemory filter g))).map (·.id)) := by
  let rows := (g.workflows.values.filter (shownInMemory filter g)).mergeSort fun a b =>
    a.createdAt ≤ b.createdAt
  let ordered := if filter.sortDesc then rows.reverse else rows
  have hlist : (Memory.listWorkflows filter g).1 =
      .ok ((memoryPage filter ordered).map (Memory.project filter)) := by
    have hpasses := funext (passes_eq_shownInMemory filter g)
    have hmax (n : Int) : (max n 0).toNat = n.toNat := by omega
    unfold Memory.listWorkflows memoryPage skipped
    dsimp only
    rw [hpasses]
    cases filter.limit <;> cases filter.offset <;> simp [hmax, ordered, rows]
  have hperm : ordered.Perm (g.workflows.values.filter (shownInMemory filter g)) := by
    have hsorted := mergeSort_perm (g.workflows.values.filter (shownInMemory filter g))
      fun a b => a.createdAt ≤ b.createdAt
    simp only [ordered]
    split
    · exact (reverse_perm _).trans hsorted
    · exact hsorted
  have hordered : ordered.map stamp =
      ((inOrder filter g).filter (shownInMemory filter g)).map stamp :=
    eq_map_stamp_inOrder hg htimes (hperm.map stamp)
      (pairwise_map.mpr (pairwise_sorted filter.sortDesc _))
  have hids (l : List WorkflowStatus) : l.map (·.id) = (l.map stamp).map Prod.fst := by
    rw [List.map_map]
    rfl
  rw [hlist, Except.map, List.map_map]
  change Except.ok ((memoryPage filter ordered).map (·.id)) = _
  rw [map_memoryPage, map_memoryPage, hids ordered, hordered, ← hids]

/-- The rows SQLite reads are those of the in-memory backend that it lists. -/
theorem perm_sqlite_stamps (h : Mirrors g db) (hg : Memory.WellKeyed g) (filter : ListFilter) :
    ((db.workflowStatus.values.filter (Sqlite.passes filter)).map fun r =>
      (r.workflowUuid, r.createdAt)).Perm
        ((g.workflows.values.filter (shownInSqlite filter db)).map stamp) := by
  obtain ⟨pairs, hleft, hright, hrel⟩ := AList.exists_pairs h.rows
  have hvalues : g.workflows.values = pairs.map (·.2.1) := by
    rw [AList.values, hleft, List.map_map]
    rfl
  have hrows : db.workflowStatus.values.Perm (pairs.map (·.2.2)) := by
    have hrows := hright.map Sigma.snd
    rw [List.map_map] at hrows
    exact hrows
  have hshown : ∀ p ∈ pairs, Sqlite.passes filter p.2.2 = shownInSqlite filter db p.2.1 := by
    intro p hp
    have hw : g.workflows.lookup p.1 = some p.2.1 :=
      AList.mem_lookup_iff.mpr (hleft ▸ mem_map_of_mem hp)
    have hr : db.workflowStatus.lookup p.1 = some p.2.2 :=
      AList.mem_lookup_iff.mpr (hright.mem_iff.mpr (mem_map_of_mem hp))
    rw [← hg p.1 p.2.1 hw] at hr
    exact passes_eq_shownInSqlite (hrel p hp) hr
  refine ((hrows.filter _).map _).trans (List.Perm.of_eq ?_)
  rw [hvalues, List.filter_map, List.filter_map, List.map_map, List.map_map,
    filter_congr (show ∀ p ∈ pairs, (Sqlite.passes filter ∘ fun p => p.2.2) p =
      (shownInSqlite filter db ∘ fun p => p.2.1) p from hshown)]
  refine map_congr_left fun p hp => ?_
  have hrow := hrel p (mem_filter.mp hp).1
  exact Prod.ext hrow.id hrow.createdAt

section

variable (X : TextCodec) (s : Serializer) (now : DateTime)

/-- **The ids SQLite lists.** -/
theorem sqlite_ids (h : Mirrors g db) (hg : Memory.WellKeyed g) (htimes : DistinctTimes g)
    (hclause : filter.limit = none → filter.offset = none) :
    (Sqlite.listWorkflows X s now filter db).1.map (List.map (·.id)) =
      .ok ((sqlitePage filter
        ((inOrder filter g).filter (shownInSqlite filter db))).map (·.id)) := by
  let le (a b : Sqlite.StatusRow) : Bool :=
    if filter.sortDesc then b.createdAt ≤ a.createdAt else a.createdAt ≤ b.createdAt
  let rows := (db.workflowStatus.values.filter (Sqlite.passes filter)).mergeSort le
  have hlist : (Sqlite.listWorkflows X s now filter db).1 = .ok ((sqlitePage filter rows).map
      fun r => Sqlite.project filter (Sqlite.rowToStatus X s now r)) := by
    unfold Sqlite.listWorkflows sqlitePage skipped
    cases hlimit : filter.limit with
    | some lim => simp [rows, le]
    | none => simp [rows, le, hclause hlimit]
  have hle {a b : Sqlite.StatusRow} : le a b = true ↔
      NotAfter filter.sortDesc a.createdAt b.createdAt := by
    simp only [le, NotAfter]
    cases filter.sortDesc <;> simp
  have hsorted : rows.Pairwise fun a b => NotAfter filter.sortDesc a.createdAt b.createdAt := by
    have htrans (a b c : Sqlite.StatusRow) (hab : le a b) (hbc : le b c) : le a c := by
      rw [hle] at hab hbc ⊢
      unfold NotAfter at *
      split at hab <;> simp_all <;> omega
    have htotal (a b : Sqlite.StatusRow) : le a b || le b a := by
      rw [Bool.or_eq_true, hle, hle]
      unfold NotAfter
      split <;> omega
    exact (pairwise_mergeSort htrans htotal _).imp hle.mp
  have hperm := ((mergeSort_perm _ le).map _).trans (perm_sqlite_stamps h hg filter)
  have hrows := eq_map_stamp_inOrder hg htimes hperm (pairwise_map.mpr hsorted)
  have hids (l : List WorkflowStatus) : l.map (·.id) = (l.map stamp).map Prod.fst := by
    rw [List.map_map]
    rfl
  rw [hlist, Except.map, List.map_map]
  change Except.ok ((sqlitePage filter rows).map fun r => r.workflowUuid) = _
  rw [map_sqlitePage, map_sqlitePage, hids, ← hrows, List.map_map]
  rfl

/-! ## When the two list alike -/

/-- The two backends list the same ids in the same order. -/
def SameIds (filter : ListFilter) (g : Memory.Inner) (db : Sqlite.Db) : Prop :=
  (Memory.listWorkflows filter g).1.map (List.map (·.id)) =
    (Sqlite.listWorkflows X s now filter db).1.map (List.map (·.id))

/-- **Nothing in which the backends differ shows on the page.**  Without a limit there is no offset,
and no row that only one of them lets pass; with a negative one SQLite skips every row it lets pass;
with another, both pages are blank, or as many rows pass before the page in both, and the same on
it. -/
def ListsAlike (filter : ListFilter) (g : Memory.Inner) (db : Sqlite.Db) : Prop :=
  let rows := inOrder filter g
  let inMemory := shownInMemory filter g
  let inSqlite := shownInSqlite filter db
  match filter.limit with
  | none => filter.offset = none ∧ ∀ w ∈ rows, inMemory w = inSqlite w
  | some lim =>
    if lim < 0 then rows.countP inSqlite ≤ skipped filter
    else Paging.Blank inMemory (skipped filter) lim.toNat rows ∧
        Paging.Blank inSqlite (skipped filter) lim.toNat rows ∨
      Paging.Aligned inMemory inSqlite (skipped filter) lim.toNat rows

theorem sqlite_refuses (db : Sqlite.Db) (hlimit : filter.limit = none)
    (hoffset : filter.offset ≠ none) :
    ∃ e, (Sqlite.listWorkflows X s now filter db).1 = .error e := by
  obtain ⟨off, hoff⟩ := ne_none_iff_exists'.mp hoffset
  unfold Sqlite.listWorkflows
  rw [hlimit, hoff]
  exact ⟨_, rfl⟩

/-- With both lists at hand, it is the pages that are compared. -/
theorem sameIds_iff_pages (h : Mirrors g db) (hg : Memory.WellKeyed g) (htimes : DistinctTimes g)
    (hclause : filter.limit = none → filter.offset = none) : SameIds X s now filter g db ↔
      memoryPage filter ((inOrder filter g).filter (shownInMemory filter g)) =
        sqlitePage filter ((inOrder filter g).filter (shownInSqlite filter db)) := by
  rw [SameIds, memory_ids hg htimes, sqlite_ids X s now h hg htimes hclause, Except.ok.injEq]
  exact Paging.map_eq_map_iff (nodup_ids_inOrder hg filter)
    ((memoryPage_sublist filter _).trans filter_sublist).subset
    ((sqlitePage_sublist filter _).trans filter_sublist).subset

/-- **When listing agrees across the backends.**  The database has the rows of the store, and no two
were created in one millisecond. -/
theorem listings_agree_iff (h : Mirrors g db) (hg : Memory.WellKeyed g) (htimes : DistinctTimes g)
    (filter : ListFilter) : SameIds X s now filter g db ↔ ListsAlike filter g db := by
  have hnodup : (inOrder filter g).Nodup := (nodup_ids_inOrder hg filter).of_map _
  unfold ListsAlike
  cases hlimit : filter.limit with
  | none =>
    by_cases hoffset : filter.offset = none
    · have hskip : skipped filter = 0 := by rw [skipped, hoffset]; rfl
      rw [sameIds_iff_pages X s now h hg htimes fun _ => hoffset, memoryPage, sqlitePage,
        hlimit, Sqlite.limitRows, hskip, drop_zero, drop_zero, Paging.filter_eq_iff]
      exact (and_iff_right hoffset).symm
    · -- An offset without a limit is an error.
      refine iff_of_false (fun hsame => ?_) fun hlike => hoffset hlike.1
      obtain ⟨e, he⟩ := sqlite_refuses X s now db hlimit hoffset
      rw [SameIds, he, memory_ids hg htimes] at hsame
      cases hsame
  | some lim =>
    rw [sameIds_iff_pages X s now h hg htimes (fun hnone => absurd hnone (by simp [hlimit])),
      memoryPage, sqlitePage, hlimit, Sqlite.limitRows]
    dsimp only
    split
    · next hneg =>
        rw [Int.toNat_of_nonpos (Int.le_of_lt hneg), take_zero, eq_comm,
          drop_eq_nil_iff, ← countP_eq_length_filter]
    · exact Paging.page_eq_iff hnodup

end

/-! ## Orders -/

/-- A workflow with a name in small letters. -/
def oneOrder (id : String) (ms : Int) : WorkflowStatus :=
  .new ⟨ms * 1000000⟩ id "pay" .null .pending "local" ""

/-- Orders in the in-memory backend. -/
def orders (l : List (String × Int)) : Memory.Inner where
  workflows := l.foldr (fun o t => t.insert o.1 (oneOrder o.1 o.2)) ∅

/-- The same orders in SQLite. -/
def orderRows (l : List (String × Int)) : Sqlite.Db where
  workflowStatus := l.foldr (fun o t =>
    t.insert o.1 (Sqlite.insertedRow noText .json (oneOrder o.1 o.2) "null")) ∅

section

variable {l : List (String × Int)}

theorem lookup_orders : ∀ id w, (orders l).workflows.lookup id = some w →
    ∃ ms, (id, ms) ∈ l ∧ w = oneOrder id ms := by
  induction l with
  | nil => exact fun _ _ h => (by cases h)
  | cons o l ih =>
    refine AList.forall_lookup_insert (fun id w h => ?_) ⟨o.2, mem_cons_self, rfl⟩
    obtain ⟨ms, hms, rfl⟩ := ih id w h
    exact ⟨ms, mem_cons_of_mem _ hms, rfl⟩

theorem wellKeyed_orders : Memory.WellKeyed (orders l) := by
  intro id w hw
  obtain ⟨ms, -, rfl⟩ := lookup_orders id w hw
  rfl

theorem distinctTimes_orders (h : (l.map Prod.snd).Nodup) : DistinctTimes (orders l) := by
  intro id id' w w' hw hw' htime
  obtain ⟨ms, hms, rfl⟩ := lookup_orders id w hw
  obtain ⟨ms', hms', rfl⟩ := lookup_orders id' w' hw'
  have hsame : ms = ms' := by
    simpa [oneOrder, WorkflowStatus.new, DateTime.timestampMillis] using htime
  exact congrArg Prod.fst (inj_on_of_nodup_map h hms hms' hsame)

theorem mirrors_orders : Mirrors (orders l) (orderRows l) where
  rows id := by
    induction l with
    | nil => exact .none
    | cons o l ih =>
      rw [orders, orderRows, foldr_cons, foldr_cons]
      by_cases hid : id = o.1
      · subst hid
        rw [AList.lookup_insert, AList.lookup_insert]
        exact .some ⟨rfl, rfl, rfl, rfl, rfl, rfl, rfl, rfl, rfl, rfl, rfl, rfl⟩
      · rw [AList.lookup_insert_ne hid, AList.lookup_insert_ne hid]
        exact ih
  steps _ := .none

end

/-- The second page of the workflows that are pending, with one on each page. -/
theorem listings_agree_secondPage :
    SameIds noText .json ⟨0⟩ { status := [.pending], limit := some 1, offset := some 1 }
      (orders [("order-1", 0), ("order-2", 1)]) (orderRows [("order-1", 0), ("order-2", 1)]) := by
  refine (listings_agree_iff noText .json ⟨0⟩ mirrors_orders wellKeyed_orders
    (distinctTimes_orders (by decide)) _).mpr
    (.inr ⟨[oneOrder "order-1" 0], [oneOrder "order-2" 1], [], ?_, rfl, rfl, ?_, .inl rfl⟩)
  · exact mergeSort_of_pairwise (by decide)
  · decide

theorem inOrder_oneOrder (filter : ListFilter) :
    inOrder filter (orders [("order-1", 0)]) = [oneOrder "order-1" 0] := by
  have hvalues : (orders [("order-1", 0)]).workflows.values = [oneOrder "order-1" 0] := rfl
  rw [inOrder, hvalues, mergeSort_singleton]
  exact ite_self _

/-- **A prefix in capitals, an offset without a limit and a negative limit are each read in two
ways.** -/
theorem listings_disagree :
    let g := orders [("order-1", 0)]
    let db := orderRows [("order-1", 0)]
    Mirrors g db ∧ Memory.WellKeyed g ∧ DistinctTimes g ∧
    ¬SameIds noText .json ⟨0⟩ { workflowIdPrefix := ["ORDER"] } g db ∧
    ¬SameIds noText .json ⟨0⟩ { offset := some 0 } g db ∧
    ¬SameIds noText .json ⟨0⟩ { limit := some (-1) } g db := by
  intro g db
  have htimes : DistinctTimes g := distinctTimes_orders (by decide)
  refine ⟨mirrors_orders, wellKeyed_orders, htimes, fun hsame => ?_, fun hsame => ?_,
    fun hsame => ?_⟩
  · rw [sameIds_iff_pages _ _ _ mirrors_orders wellKeyed_orders htimes fun _ => rfl,
      inOrder_oneOrder] at hsame
    have hstarts : "order-1".startsWith "ORDER" = false :=
      String.startsWith_string_eq_false_iff.mpr (by decide)
    have hmemory : shownInMemory { workflowIdPrefix := ["ORDER"] } g
        (oneOrder "order-1" 0) = false := by
      simp [shownInMemory, oneOrder, WorkflowStatus.new, hstarts]
    have hlike : Sqlite.like ("ORDER".toList ++ ['%']) "order-1".toList = true := by
      simp [Sqlite.like]
    have hsqlite : shownInSqlite { workflowIdPrefix := ["ORDER"] } db
        (oneOrder "order-1" 0) = true := by
      have hrest : passesRest { workflowIdPrefix := ["ORDER"] } (oneOrder "order-1" 0) =
        true := by decide
      rw [shownInSqlite, hrest]
      simpa [oneOrder, WorkflowStatus.new] using hlike
    rw [filter_cons_of_neg (Bool.eq_false_iff.mp hmemory), filter_cons_of_pos hsqlite] at hsame
    cases hsame
  · obtain ⟨e, he⟩ := sqlite_refuses noText .json ⟨0⟩ db
      (show ({ offset := some 0 } : ListFilter).limit = none from rfl) (by decide)
    rw [SameIds, he, memory_ids wellKeyed_orders htimes] at hsame
    cases hsame
  · have hclause : ({ limit := some (-1) } : ListFilter).limit = none →
        ({ limit := some (-1) } : ListFilter).offset = none := fun _ => rfl
    rw [sameIds_iff_pages _ _ _ mirrors_orders wellKeyed_orders htimes hclause,
      inOrder_oneOrder] at hsame
    have hsqlite : shownInSqlite { limit := some (-1) } db (oneOrder "order-1" 0) = true := by
      decide
    rw [filter_cons_of_pos hsqlite] at hsame
    cases hsame

end Durare
