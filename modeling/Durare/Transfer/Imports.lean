import Durare.Transfer.Exports

/-!
# Transfer/Imports — what an import leaves in an empty SQLite database

A `Cargo` is what the columns of an exported workflow are read as: its row, its checkpoints, its
events and its stream entries.  If every exported workflow is read as some cargo (`Carries`), their
ids are apart and no two rows hold the same deduplication slot, then the import succeeds and the
database has under every id what the cargo has (`import_carries`).
-/

namespace Durare

open List Option

/-! ## Loops that may fail -/

section

variable {ε σ γ β : Type}

theorem mapM_eq_ok {f : γ → Except ε β} {g : γ → β} : ∀ {xs : List γ},
    (∀ x ∈ xs, f x = .ok (g x)) → xs.mapM f = .ok (xs.map g)
  | [], _ => rfl
  | x :: xs, h => by
    rw [mapM_cons, h x mem_cons_self,
      mapM_eq_ok fun y hy => h y (mem_cons_of_mem _ hy)]
    rfl

theorem foldlM_read {read : γ → Except ε β} {f : σ → β → Except ε σ} :
    ∀ {xs : List γ} {ys : List β},
    xs.mapM read = .ok ys → ∀ s, xs.foldlM (fun s x => read x >>= f s) s = ys.foldlM f s
  | [], ys, h, s => by
    cases h
    rfl
  | x :: xs, ys, h, s => by
    rw [mapM_cons] at h
    cases hx : read x with
    | error e =>
      rw [hx] at h
      cases h
    | ok y =>
      cases hxs : xs.mapM read with
      | error e =>
        rw [hx, hxs] at h
        cases h
      | ok ys' =>
        rw [hx, hxs] at h
        cases h
        rw [foldlM_cons, foldlM_cons, hx]
        exact congrArg (f s y >>= ·) (funext fun s' => foldlM_read hxs s')

theorem foldlM_eq_ok {f : σ → γ → Except ε σ} {g : σ → γ → σ} {P : σ → List γ → Prop}
    (hstep : ∀ s x xs, P s (x :: xs) → f s x = .ok (g s x) ∧ P (g s x) xs) :
    ∀ xs s, P s xs → xs.foldlM f s = .ok (xs.foldl g s)
  | [], _, _ => rfl
  | x :: xs, s, h => by
    obtain ⟨hx, hxs⟩ := hstep s x xs h
    rw [foldlM_cons, hx]
    exact foldlM_eq_ok hstep xs (g s x) hxs

/-- The first part of a computation that does not fail does not fail. -/
theorem exists_ok_of_bind {x : Except ε γ} {f : γ → Except ε β} {b : β} (h : x >>= f = .ok b) :
    ∃ a, x = .ok a ∧ f a = .ok b := by
  cases x with
  | error e => cases h
  | ok a => exact ⟨a, rfl, h⟩

variable {f : σ → γ → Except ε σ}

/-- What every round keeps, a loop that does not fail keeps. -/
theorem foldlM_keeps {P : σ → Prop} (hstep : ∀ s x s', P s → f s x = .ok s' → P s') :
    ∀ {xs : List γ} {s s' : σ}, xs.foldlM f s = .ok s' → P s → P s'
  | [], s, s', h, hs => by
    cases h
    exact hs
  | x :: xs, s, s', h, hs => by
    rw [foldlM_cons] at h
    obtain ⟨s₁, hx, hxs⟩ := exists_ok_of_bind h
    exact foldlM_keeps hstep hxs (hstep s x s₁ hs hx)

theorem exists_ok_of_foldlM {x : γ} : ∀ {xs : List γ} {s s' : σ},
    xs.foldlM f s = .ok s' → x ∈ xs → ∃ a b, f a x = .ok b
  | y :: xs, s, s', h, hx => by
    rw [foldlM_cons] at h
    obtain ⟨s₁, hy, hys⟩ := exists_ok_of_bind h
    rcases mem_cons.mp hx with rfl | hx
    · exact ⟨s, s₁, hy⟩
    · exact exists_ok_of_foldlM hys hx

end

namespace Sqlite

open Memory (Columns ExportedWorkflow colStr insertAll)

/-! ## The rows of one workflow -/

/-- The rows of one workflow, with their keys. -/
def keyed {κ α : Type} (id : String) (rows : List (κ × α)) : List ((String × κ) × α) :=
  rows.map fun row => ((id, row.1), row.2)

section

variable {κ α : Type} [DecidableEq κ] {id : String} {k : κ}

/-- A table filled with the rows of one workflow, looked up under its id. -/
theorem lookup_insertAll_keyed {rows : List (κ × α)} (hnodup : (rows.map Prod.fst).Nodup)
    (t : Table (String × κ) α) :
    (insertAll t (keyed id rows)).lookup (id, k) = (rows.lookup k).or (t.lookup (id, k)) := by
  induction rows generalizing t with
  | nil => rfl
  | cons row rows ih =>
    obtain ⟨key, a⟩ := row
    obtain ⟨hkey, hrows⟩ := nodup_cons.mp hnodup
    change (insertAll (t.insert (id, key) a) (keyed id rows)).lookup (id, k) = _
    rw [ih hrows]
    by_cases hk : k = key
    · subst hk
      have hnone : rows.lookup k = none := by
        refine lookup_eq_none_iff.mpr fun row hrow => bne_iff_ne.mpr ?_
        rintro rfl
        exact hkey (mem_map.mpr ⟨row, hrow, rfl⟩)
      rw [hnone, AList.lookup_insert, lookup_cons_self]
      rfl
    · have hne : (id, k) ≠ (id, key) := fun heq => hk (Prod.mk.inj heq).2
      rw [AList.lookup_insert_ne hne, lookup_cons, beq_eq_false_iff_ne.mpr hk]

theorem lookup_insertAll_keyed_ne {id' : String} (hne : id' ≠ id) (rows : List (κ × α))
    (t : Table (String × κ) α) :
    (insertAll t (keyed id rows)).lookup (id', k) = t.lookup (id', k) := by
  induction rows generalizing t with
  | nil => rfl
  | cons row rows ih =>
    have hkey : (id', k) ≠ (id, row.1) := fun heq => hne (Prod.mk.inj heq).1
    exact (ih (t.insert (id, row.1) row.2)).trans (AList.lookup_insert_ne hkey)

end

theorem nodup_keyed {κ α : Type} {id : String} {rows : List (κ × α)}
    (h : (rows.map Prod.fst).Nodup) : ((keyed id rows).map Prod.fst).Nodup := by
  rw [keyed, List.map_map]
  refine List.Nodup.of_map Prod.snd ?_
  rw [List.map_map]
  exact h

/-! ## Cargo -/

/-- What the columns of an exported workflow are read as. -/
structure Cargo where
  row : StatusRow
  operations : List (Int × OperationRow)
  events : List (String × (String × Option String))
  entries : List StreamRow

namespace Cargo

variable (c : Cargo)

def id : String := c.row.workflowUuid

/-- Nothing is there twice, and every entry belongs to the workflow. -/
structure Sound : Prop where
  operations : (c.operations.map Prod.fst).Nodup
  events : (c.events.map Prod.fst).Nodup
  own : ∀ r ∈ c.entries, r.workflowUuid = c.id
  entries : c.entries.Pairwise fun a b => ¬(a.key = b.key ∧ a.offset = b.offset)

/-- The database with the cargo put in. -/
def unload (db : Db) : Db :=
  { db with
    workflowStatus := db.workflowStatus.insert c.id c.row
    operationOutputs := insertAll db.operationOutputs (keyed c.id c.operations)
    workflowEvents := insertAll db.workflowEvents (keyed c.id c.events)
    streams := db.streams ++ c.entries }

end Cargo

/-- The columns of the exported workflow are read as the cargo. -/
structure Carries (wf : ExportedWorkflow) (c : Cargo) : Prop where
  status : importedStatus wf.workflowStatus = .ok c.row
  operations : wf.operationOutputs.mapM importedOperation = .ok (keyed c.id c.operations)
  events : wf.workflowEvents.mapM importedEvent = .ok (keyed c.id c.events)
  streams : wf.streams.mapM importedEntry = .ok c.entries

/-- What a database has under a workflow id. -/
structure Holdings where
  row : Option StatusRow
  operations : Int → Option OperationRow
  events : String → Option (String × Option String)
  entries : List StreamRow

def holdings (db : Db) (id : String) : Holdings where
  row := db.workflowStatus.lookup id
  operations seq := db.operationOutputs.lookup (id, seq)
  events key := db.workflowEvents.lookup (id, key)
  entries := db.streams.filter fun r => r.workflowUuid = id

/-- Nothing at all. -/
def Holdings.none : Holdings := ⟨.none, fun _ => .none, fun _ => .none, []⟩

/-- What a database has once the cargo is put in. -/
def Cargo.holdings (c : Cargo) : Holdings where
  row := some c.row
  operations seq := c.operations.lookup seq
  events key := c.events.lookup key
  entries := c.entries

/-- Two entries at the same place of a stream. -/
def Collide (a b : StreamRow) : Prop :=
  a.workflowUuid = b.workflowUuid ∧ a.key = b.key ∧ a.offset = b.offset

/-! ## One workflow -/

variable {cols : List Columns}

section

variable {db : Db} {c : Cargo} {wf : ExportedWorkflow}

/-- Rows with keys of their own, that belong to workflows that are there, are inserted one after the
other. -/
theorem import_rows {κ ρ : Type} [DecidableEq κ] {columns : String}
    {read : Columns → Except Error ((String × κ) × ρ)} (get : Db → Table (String × κ) ρ)
    (set : Db → Table (String × κ) ρ → Db)
    (hstatus : ∀ db t, (set db t).workflowStatus = db.workflowStatus)
    (hget : ∀ db t, get (set db t) = t) (hset : ∀ db t t', set (set db t) t' = set db t')
    (hself : ∀ db, set db (get db) = db) {rows : List ((String × κ) × ρ)}
    (hread : cols.mapM read = .ok rows) (hnodup : (rows.map Prod.fst).Nodup)
    (habsent : ∀ row ∈ rows, (get db).lookup row.1 = none)
    (hthere : ∀ row ∈ rows, (db.workflowStatus.lookup row.1.1).isSome) :
    cols.foldlM (fun db col => read col >>= fun row => do
      let t ← insertRow columns db (get db) row
      return set db t) db = .ok (set db (insertAll (get db) rows)) := by
  let put (db : Db) (row : (String × κ) × ρ) : Db := set db ((get db).insert row.1 row.2)
  have hput (rows : List ((String × κ) × ρ)) (db : Db) :
      rows.foldl put db = set db (insertAll (get db) rows) := by
    induction rows generalizing db with
    | nil => exact (hself db).symm
    | cons row rows ih =>
      refine (ih (put db row)).trans ?_
      rw [hset, hget]
      rfl
  refine (foldlM_read hread db).trans ?_
  refine (foldlM_eq_ok (g := put) (P := fun db rows => (rows.map Prod.fst).Nodup ∧
    (∀ row ∈ rows, (get db).lookup row.1 = none) ∧
    ∀ row ∈ rows, (db.workflowStatus.lookup row.1.1).isSome) ?_ rows db
    ⟨hnodup, habsent, hthere⟩).trans (congrArg Except.ok (hput rows db))
  rintro db row rows ⟨hnodup, habsent, hthere⟩
  obtain ⟨hrow, hrows⟩ := nodup_cons.mp hnodup
  refine ⟨?_, hrows, fun row' hrow' => ?_, fun row' hrow' => ?_⟩
  · rw [insertRow, habsent row mem_cons_self, referenced,
      if_pos (hthere row mem_cons_self)]
    rfl
  · have hne : row'.1 ≠ row.1 := fun heq => hrow (heq ▸ mem_map_of_mem hrow')
    rw [hget, AList.lookup_insert_ne hne]
    exact habsent row' (mem_cons_of_mem _ hrow')
  · rw [hstatus]
    exact hthere row' (mem_cons_of_mem _ hrow')

/-- Stream entries at places of their own are appended one after the other. -/
theorem import_entries {rows : List StreamRow} (hread : cols.mapM importedEntry = .ok rows)
    (hplaces : (db.streams ++ rows).Pairwise fun a b => ¬Collide a b)
    (hthere : ∀ row ∈ rows, (db.workflowStatus.lookup row.workflowUuid).isSome) :
    cols.foldlM importEntry db = .ok { db with streams := db.streams ++ rows } := by
  let put (db : Db) (row : StreamRow) : Db := { db with streams := db.streams ++ [row] }
  have hput (rows : List StreamRow) (db : Db) :
      rows.foldl put db = { db with streams := db.streams ++ rows } := by
    induction rows generalizing db with
    | nil =>
      rw [append_nil]
      rfl
    | cons row rows ih =>
      refine (ih (put db row)).trans ?_
      rw [append_assoc]
      rfl
  refine (foldlM_read hread db).trans ?_
  refine (foldlM_eq_ok (g := put) (P := fun db rows =>
    (db.streams ++ rows).Pairwise (fun a b => ¬Collide a b) ∧
    ∀ row ∈ rows, (db.workflowStatus.lookup row.workflowUuid).isSome) ?_ rows db
    ⟨hplaces, hthere⟩).trans (congrArg Except.ok (hput rows db))
  rintro db row rows ⟨hplaces, hthere⟩
  refine ⟨?_, ?_, fun row' hrow' => hthere row' (mem_cons_of_mem _ hrow')⟩
  · have hfree : (db.streams.any fun r => r.workflowUuid = row.workflowUuid && r.key = row.key &&
        r.offset = row.offset) = false := by
      rw [List.any_eq_false]
      intro r hr htaken
      simp only [Bool.and_eq_true, decide_eq_true_eq, and_assoc] at htaken
      exact (pairwise_append.mp hplaces).2.2 r hr row mem_cons_self htaken
    rw [hfree, referenced, if_pos (hthere row mem_cons_self)]
    rfl
  · rw [append_assoc]
    exact hplaces

/-- **An exported workflow is imported** into a database that has nothing under its id, unless its
deduplication slot is taken. -/
theorem importOne_carries (hc : Carries wf c) (hsound : c.Sound)
    (hvacant : holdings db c.id = .none) (hslot : dedupTaken db c.row = false)
    (hplaces : db.streams.Pairwise fun a b => ¬Collide a b) :
    importOne db wf = .ok (c.unload db) := by
  let db₁ : Db := { db with workflowStatus := db.workflowStatus.insert c.id c.row }
  let db₂ : Db := { db₁ with
    operationOutputs := insertAll db.operationOutputs (keyed c.id c.operations) }
  let db₃ : Db := { db₂ with workflowEvents := insertAll db.workflowEvents (keyed c.id c.events) }
  have hthere : (db₁.workflowStatus.lookup c.id).isSome := by
    rw [AList.lookup_insert]
    rfl
  have hstatus : importStatus db wf.workflowStatus = .ok db₁ := by
    have hnone : db.workflowStatus.lookup c.row.workflowUuid = none := congrArg Holdings.row hvacant
    simp only [importStatus, hc.status, bind, Except.bind, hnone, hslot]
    rfl
  have hoperations : wf.operationOutputs.foldlM importOperation db₁ = .ok db₂ := by
    refine import_rows Db.operationOutputs (fun db t => { db with operationOutputs := t })
      (fun _ _ => rfl) (fun _ _ => rfl) (fun _ _ _ => rfl) (fun _ => rfl) hc.operations ?_ ?_ ?_
    · exact nodup_keyed hsound.operations
    · intro row hrow
      obtain ⟨o, ho, rfl⟩ := mem_map.mp hrow
      exact congrFun (congrArg Holdings.operations hvacant) o.1
    · intro row hrow
      obtain ⟨o, ho, rfl⟩ := mem_map.mp hrow
      exact hthere
  have hevents : wf.workflowEvents.foldlM importEvent db₂ = .ok db₃ := by
    refine import_rows Db.workflowEvents (fun db t => { db with workflowEvents := t })
      (fun _ _ => rfl) (fun _ _ => rfl) (fun _ _ _ => rfl) (fun _ => rfl) hc.events ?_ ?_ ?_
    · exact nodup_keyed hsound.events
    · intro row hrow
      obtain ⟨e, he, rfl⟩ := mem_map.mp hrow
      exact congrFun (congrArg Holdings.events hvacant) e.1
    · intro row hrow
      obtain ⟨e, he, rfl⟩ := mem_map.mp hrow
      exact hthere
  have hentries : wf.streams.foldlM importEntry db₃ = .ok (c.unload db) := by
    refine import_entries hc.streams ?_ fun row hrow => ?_
    · refine pairwise_append.mpr ⟨hplaces, ?_, fun a ha b hb hab => ?_⟩
      · exact hsound.entries.imp fun hab h => hab h.2
      · have hnone := congrArg Holdings.entries hvacant
        refine filter_eq_nil_iff.mp hnone a ha (decide_eq_true ?_)
        exact hab.1.trans (hsound.own b hb)
    · rw [hsound.own row hrow]
      exact hthere
  rw [importOne, hstatus]
  change (wf.operationOutputs.foldlM importOperation db₁ >>= _) = _
  rw [hoperations]
  change (wf.workflowEvents.foldlM importEvent db₂ >>= _) = _
  rw [hevents]
  exact hentries

/-! ## What the database has then -/

theorem holdings_unload (hsound : c.Sound) (hvacant : holdings db c.id = .none) :
    holdings (c.unload db) c.id = c.holdings := by
  have hoperations (seq : Int) : (c.unload db).operationOutputs.lookup (c.id, seq) =
      c.operations.lookup seq := by
    have hnone : db.operationOutputs.lookup (c.id, seq) = none :=
      congrFun (congrArg Holdings.operations hvacant) seq
    refine (lookup_insertAll_keyed hsound.operations db.operationOutputs).trans ?_
    rw [hnone, or_none]
  have hevents (key : String) : (c.unload db).workflowEvents.lookup (c.id, key) =
      c.events.lookup key := by
    have hnone : db.workflowEvents.lookup (c.id, key) = none :=
      congrFun (congrArg Holdings.events hvacant) key
    refine (lookup_insertAll_keyed hsound.events db.workflowEvents).trans ?_
    rw [hnone, or_none]
  have hentries : (c.unload db).streams.filter (fun r => r.workflowUuid = c.id) = c.entries := by
    have hnone : db.streams.filter (fun r => r.workflowUuid = c.id) = [] :=
      congrArg Holdings.entries hvacant
    refine (filter_append ..).trans ?_
    rw [hnone, nil_append, filter_eq_self]
    exact fun r hr => decide_eq_true (hsound.own r hr)
  have hrow : (c.unload db).workflowStatus.lookup c.id = some c.row :=
    AList.lookup_insert db.workflowStatus
  rw [holdings, hrow, funext hoperations, funext hevents, hentries]
  rfl

theorem holdings_unload_ne (hsound : c.Sound) {id : String} (hne : id ≠ c.id) :
    holdings (c.unload db) id = holdings db id := by
  have hoperations (seq : Int) : (c.unload db).operationOutputs.lookup (id, seq) =
      db.operationOutputs.lookup (id, seq) :=
    lookup_insertAll_keyed_ne hne c.operations db.operationOutputs
  have hevents (key : String) : (c.unload db).workflowEvents.lookup (id, key) =
      db.workflowEvents.lookup (id, key) :=
    lookup_insertAll_keyed_ne hne c.events db.workflowEvents
  have hentries : (c.unload db).streams.filter (fun r => r.workflowUuid = id) =
      db.streams.filter fun r => r.workflowUuid = id := by
    refine (filter_append ..).trans ?_
    rw [append_right_eq_self, filter_eq_nil_iff]
    intro r hr hid
    exact hne ((of_decide_eq_true hid).symm.trans (hsound.own r hr))
  have hrow : (c.unload db).workflowStatus.lookup id = db.workflowStatus.lookup id :=
    AList.lookup_insert_ne hne
  rw [holdings, hrow, funext hoperations, funext hevents, hentries]
  rfl

end

/-! ## A whole export -/

/-- Two rows in the same deduplication slot. -/
def Clash (a b : StatusRow) : Prop :=
  a.queueName.isSome ∧ a.deduplicationId.isSome ∧ b.queueName = a.queueName ∧
    b.deduplicationId = a.deduplicationId

theorem dedupTaken_eq_false {db : Db} {row : StatusRow} : dedupTaken db row = false ↔
    ∀ id w, db.workflowStatus.lookup id = some w → w.workflowUuid ≠ row.workflowUuid →
      ¬Clash row w := by
  rw [← Bool.not_eq_true, dedupTaken]
  simp only [Bool.and_eq_true, List.any_eq_true, AList.mem_values, decide_eq_true_eq, not_and,
    not_exists, Clash, and_imp]
  constructor
  · intro h id w hw hne hqueue hdedup hq hd
    exact h hqueue hdedup w ⟨id, hw⟩ hne hq hd
  · intro h hqueue hdedup w ⟨id, hw⟩ hne hq hd
    exact h id w hw hne hqueue hdedup hq hd

/-- The cargoes can be put into the database one after the other. -/
structure Ready (db : Db) (cs : List Cargo) : Prop where
  sound : ∀ c ∈ cs, c.Sound
  apart : cs.Pairwise fun a b => a.id ≠ b.id
  slots : cs.Pairwise fun a b => ¬Clash b.row a.row
  vacant : ∀ c ∈ cs, holdings db c.id = .none
  free : ∀ c ∈ cs, dedupTaken db c.row = false
  places : db.streams.Pairwise fun a b => ¬Collide a b

section

variable {db : Db} {c : Cargo} {cs : List Cargo} {wfs : List ExportedWorkflow}

theorem Ready.step (h : Ready db (c :: cs)) : Ready (c.unload db) cs where
  sound c' hc' := h.sound c' (mem_cons_of_mem _ hc')
  apart := (pairwise_cons.mp h.apart).2
  slots := (pairwise_cons.mp h.slots).2
  vacant c' hc' := by
    have hne := (pairwise_cons.mp h.apart).1 c' hc'
    rw [holdings_unload_ne (h.sound c mem_cons_self) hne.symm]
    exact h.vacant c' (mem_cons_of_mem _ hc')
  free c' hc' := by
    have hfree := dedupTaken_eq_false.mp (h.free c' (mem_cons_of_mem _ hc'))
    refine dedupTaken_eq_false.mpr fun id w hw hne => ?_
    by_cases hid : id = c.id
    · subst hid
      have hrow : (c.unload db).workflowStatus.lookup c.id = some c.row :=
        AList.lookup_insert db.workflowStatus
      cases Option.some.inj (hrow.symm.trans hw)
      exact (pairwise_cons.mp h.slots).1 c' hc'
    · exact hfree id w ((AList.lookup_insert_ne hid).symm.trans hw) hne
  places := by
    have hsound := h.sound c mem_cons_self
    refine pairwise_append.mpr ⟨h.places, hsound.entries.imp fun hab hcol => hab hcol.2, ?_⟩
    intro a ha b hb hcol
    have hnone := congrArg Holdings.entries (h.vacant c mem_cons_self)
    refine filter_eq_nil_iff.mp hnone a ha (decide_eq_true ?_)
    exact hcol.1.trans (hsound.own b hb)

theorem foldlM_importOne (hcs : List.Forall₂ Carries wfs cs) (h : Ready db cs) :
    wfs.foldlM importOne db = .ok (cs.foldl (fun db c => c.unload db) db) := by
  induction hcs generalizing db with
  | nil => rfl
  | cons hc _ ih =>
    rw [foldlM_cons, importOne_carries hc (h.sound _ mem_cons_self)
      (h.vacant _ mem_cons_self) (h.free _ mem_cons_self) h.places]
    exact ih h.step

theorem holdings_foldl_ne {id : String} (hsound : ∀ c ∈ cs, c.Sound)
    (hne : ∀ c ∈ cs, id ≠ c.id) :
    holdings (cs.foldl (fun db c => c.unload db) db) id = holdings db id := by
  induction cs generalizing db with
  | nil => rfl
  | cons c cs ih =>
    refine (ih (fun c' hc' => hsound c' (mem_cons_of_mem _ hc'))
      fun c' hc' => hne c' (mem_cons_of_mem _ hc')).trans ?_
    exact holdings_unload_ne (hsound c mem_cons_self) (hne c mem_cons_self)

theorem holdings_foldl (h : Ready db cs) (hc : c ∈ cs) :
    holdings (cs.foldl (fun db c => c.unload db) db) c.id = c.holdings := by
  induction cs generalizing db with
  | nil => cases hc
  | cons c' cs ih =>
    rcases mem_cons.mp hc with rfl | hc
    · refine (holdings_foldl_ne h.step.sound (pairwise_cons.mp h.apart).1).trans ?_
      exact holdings_unload (h.sound c mem_cons_self) (h.vacant c mem_cons_self)
    · exact ih h.step hc

theorem holdings_markSources (wfs : List ExportedWorkflow) (db : Db) (id : String) :
    ∃ mark : StatusRow → Bool, holdings (markSources wfs db) id =
      { holdings db id with
        row := (holdings db id).row.map fun row => { row with wasForkedFrom := mark row } } := by
  refine ⟨fun row => row.workflowUuid ∈ wfs.filterMap (fun wf => colStr wf.workflowStatus
    "forked_from") || row.wasForkedFrom, ?_⟩
  have hrow : (markSources wfs db).workflowStatus.lookup id = _ := AList.lookup_mapRows ..
  rw [holdings, hrow]
  congr 2
  funext row
  split
  · next hsource => simp only [decide_eq_true hsource, Bool.true_or]
  · next hsource => simp only [decide_eq_false hsource, Bool.false_or]

/-- **An export is imported** into an empty database, which then has under every id what was
exported; only the mark of a fork's source may differ. -/
theorem import_carries (hcs : List.Forall₂ Carries wfs cs) (hsound : ∀ c ∈ cs, c.Sound)
    (hapart : cs.Pairwise fun a b => a.id ≠ b.id)
    (hslots : cs.Pairwise fun a b => ¬Clash b.row a.row) :
    ∃ db', importWorkflow wfs {} = (.ok (), db') ∧ ∀ c ∈ cs, ∃ mark, holdings db' c.id =
      { c.holdings with row := some { c.row with wasForkedFrom := mark } } := by
  have hready : Ready {} cs := by
    refine ⟨hsound, hapart, hslots, fun _ _ => rfl, fun c _ => ?_, .nil⟩
    exact dedupTaken_eq_false.mpr fun id w hw => by cases hw
  refine ⟨_, by rw [importWorkflow, foldlM_importOne hcs hready], fun c hc => ?_⟩
  obtain ⟨mark, hmark⟩ := holdings_markSources wfs (cs.foldl (fun db c => c.unload db) {}) c.id
  rw [holdings_foldl hready hc] at hmark
  exact ⟨mark c.row, hmark⟩

/-! ## Workflows of any backend -/

/-- A workflow with the tables it is exported from, and what their rows are read as. -/
structure Origin (α β : Type) where
  row : StatusRow
  steps : Table (String × Int) α
  step : α → OperationRow
  events : Table (String × String) β
  event : β → String
  entries : List StreamRow

namespace Origin

variable {α β : Type} (o : Origin α β)

/-- What the exported workflow is read as. -/
def cargo : Cargo where
  row := o.row
  operations := ((o.steps.entries.filter fun e => e.1.1 = o.row.workflowUuid).mergeSort
    fun a b => a.1.2 ≤ b.1.2).map fun e => (e.1.2, o.step e.2)
  events := ((o.events.entries.filter fun e => e.1.1 = o.row.workflowUuid).mergeSort
    fun a b => a.1.2 ≤ b.1.2).map fun e => (e.1.2, (o.event e.2, none))
  entries := o.entries

/-- **What an import leaves of a workflow**: everything, without the formats. -/
structure Arrived (db' : Db) : Prop where
  row : ∃ mark, db'.workflowStatus.lookup o.row.workflowUuid =
    some { o.row with wasForkedFrom := mark }
  operations : ∀ seq, db'.operationOutputs.lookup (o.row.workflowUuid, seq) =
    (o.steps.lookup (o.row.workflowUuid, seq)).map o.step
  events : ∀ key, db'.workflowEvents.lookup (o.row.workflowUuid, key) =
    (o.events.lookup (o.row.workflowUuid, key)).map fun e => (o.event e, none)
  entries : db'.streams.filter (fun r => r.workflowUuid = o.row.workflowUuid) = o.entries

theorem sound_cargo (hown : ∀ r ∈ o.entries, r.workflowUuid = o.row.workflowUuid)
    (hentries : o.entries.Pairwise fun a b => ¬(a.key = b.key ∧ a.offset = b.offset)) :
    o.cargo.Sound where
  operations := by
    rw [cargo, List.map_map]
    exact nodup_own
  events := by
    rw [cargo, List.map_map]
    exact nodup_own
  own := hown
  entries := hentries

end Origin

/-- **Exported workflows are imported, and arrive.** -/
theorem import_origins {ρ α β : Type} {rows : List ρ} {out : ρ → ExportedWorkflow}
    {o : ρ → Origin α β} (hcarries : ∀ r ∈ rows, Carries (out r) (o r).cargo)
    (hsound : ∀ r ∈ rows, (o r).cargo.Sound)
    (hapart : rows.Pairwise fun a b => (o a).row.workflowUuid ≠ (o b).row.workflowUuid)
    (hslots : rows.Pairwise fun a b => ¬Clash (o b).row (o a).row) :
    ∃ db', importWorkflow (rows.map out) {} = (.ok (), db') ∧ ∀ r ∈ rows, (o r).Arrived db' := by
  have hforall : List.Forall₂ Carries (rows.map out) (rows.map fun r => (o r).cargo) := by
    rw [forall₂_map_left_iff, forall₂_map_right_iff, forall₂_same]
    exact hcarries
  obtain ⟨db', himport, hholds⟩ := import_carries hforall (forall_mem_map.mpr hsound)
    (pairwise_map.mpr hapart) (pairwise_map.mpr hslots)
  refine ⟨db', himport, fun r hr => ?_⟩
  obtain ⟨mark, hmark⟩ := hholds _ (mem_map_of_mem hr)
  exact ⟨⟨mark, congrArg Holdings.row hmark⟩,
    fun seq => (congrFun (congrArg Holdings.operations hmark) seq).trans
      (lookup_own (o r).step seq),
    fun key => (congrFun (congrArg Holdings.events hmark) key).trans
      (lookup_own (fun e => ((o r).event e, (none : Option String))) key),
    congrArg Holdings.entries hmark⟩

/-! ## What a successful import says -/

/-- The rows of `workflow_status` are written by the first statement only. -/
theorem workflowStatus_insertRow {κ ρ : Type} {read : Columns → Except Error ρ}
    {write : Db → ρ → Except Error κ} (set : Db → κ → Db)
    (hset : ∀ db t, (set db t).workflowStatus = db.workflowStatus) {cols : List Columns} {db' : Db}
    (h : cols.foldlM (fun db col => do
      let row ← read col
      let t ← write db row
      return set db t) db = .ok db') : db'.workflowStatus = db.workflowStatus := by
  refine foldlM_keeps (P := fun s => s.workflowStatus = db.workflowStatus) ?_ h rfl
  intro s col s' hs hok
  obtain ⟨row, -, hok⟩ := exists_ok_of_bind hok
  obtain ⟨t, -, hok⟩ := exists_ok_of_bind hok
  cases hok
  exact (hset s t).trans hs

/-- A workflow that is imported had a free id and a free slot, and its stream entries were read. -/
theorem importOne_ok {wf : ExportedWorkflow} {row : StatusRow} {db' : Db}
    (hrow : importedStatus wf.workflowStatus = .ok row) (h : importOne db wf = .ok db') :
    db.workflowStatus.lookup row.workflowUuid = none ∧ dedupTaken db row = false ∧
      db'.workflowStatus = db.workflowStatus.insert row.workflowUuid row ∧
      ∀ col ∈ wf.streams, ∃ r, importedEntry col = .ok r := by
  obtain ⟨db₁, h₁, h⟩ := exists_ok_of_bind h
  obtain ⟨db₂, h₂, h⟩ := exists_ok_of_bind h
  obtain ⟨db₃, h₃, h₄⟩ := exists_ok_of_bind h
  have hstatus₂ : db₂.workflowStatus = db₁.workflowStatus :=
    workflowStatus_insertRow (fun db t => { db with operationOutputs := t }) (fun _ _ => rfl) h₂
  have hstatus₃ : db₃.workflowStatus = db₂.workflowStatus :=
    workflowStatus_insertRow (fun db t => { db with workflowEvents := t }) (fun _ _ => rfl) h₃
  have hstatus₄ : db'.workflowStatus = db₃.workflowStatus := by
    refine foldlM_keeps (P := fun s => s.workflowStatus = db₃.workflowStatus) ?_ h₄ rfl
    intro s col s' hs hok
    obtain ⟨r, -, hok⟩ := exists_ok_of_bind hok
    split at hok
    · cases hok
    · obtain ⟨-, -, hok⟩ := exists_ok_of_bind hok
      cases hok
      exact hs
  have hstreams (col : Columns) (hcol : col ∈ wf.streams) : ∃ r, importedEntry col = .ok r := by
    obtain ⟨a, b, hok⟩ := exists_ok_of_foldlM h₄ hcol
    obtain ⟨r, hr, -⟩ := exists_ok_of_bind hok
    exact ⟨r, hr⟩
  obtain ⟨row', hrow', h₁⟩ := exists_ok_of_bind h₁
  cases Except.ok.inj (hrow.symm.trans hrow')
  split_ifs at h₁ with hid hslot
  cases h₁
  refine ⟨not_isSome_iff_eq_none.mp hid, Bool.eq_false_iff.mpr hslot, ?_, hstreams⟩
  rw [hstatus₄, hstatus₃, hstatus₂]

/-- **What is imported has no slot twice**, and takes none that is taken. -/
theorem slots_of_import {rows : List StatusRow} {db' : Db}
    (hrows : List.Forall₂ (fun wf row => importedStatus wf.workflowStatus = .ok row) wfs rows)
    (hapart : rows.Pairwise fun a b => a.workflowUuid ≠ b.workflowUuid)
    (h : wfs.foldlM importOne db = .ok db') :
    rows.Pairwise (fun a b => ¬Clash b a) ∧
      ∀ row ∈ rows, ∀ id w, db.workflowStatus.lookup id = some w →
        w.workflowUuid ≠ row.workflowUuid → ¬Clash row w := by
  induction hrows generalizing db with
  | nil => exact ⟨.nil, fun _ hrow => by cases hrow⟩
  | @cons wf row wfs rows hrow _ ih =>
    rw [foldlM_cons] at h
    obtain ⟨db₁, h₁, h⟩ := exists_ok_of_bind h
    obtain ⟨hid, hslot, hstatus, -⟩ := importOne_ok hrow h₁
    obtain ⟨hne, hrest⟩ := pairwise_cons.mp hapart
    obtain ⟨hslots, hfree⟩ := ih hrest h
    refine ⟨pairwise_cons.mpr ⟨fun row' hrow' => ?_, hslots⟩, fun row' hrow' id w hw => ?_⟩
    · have hthere : db₁.workflowStatus.lookup row.workflowUuid = some row := by
        rw [hstatus]
        exact AList.lookup_insert db.workflowStatus
      exact hfree row' hrow' _ row hthere (hne row' hrow')
    · rcases mem_cons.mp hrow' with rfl | hrow'
      · exact dedupTaken_eq_false.mp hslot id w hw
      · have hkey : id ≠ row.workflowUuid := by
          rintro rfl
          exact nomatch hid.symm.trans hw
        refine hfree row' hrow' id w ?_
        rw [hstatus]
        exact (AList.lookup_insert_ne hkey).trans hw

end

end Sqlite

end Durare
