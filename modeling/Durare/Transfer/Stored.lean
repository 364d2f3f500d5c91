import Durare.Context.Sqlite
import Durare.Transfer.Imports

/-!
# Transfer/Stored — what a SQLite database holds that one serializer has written

The rows are keyed by their ids and share no deduplication slot, no two entries of a stream stand at
the same place, and every value has the tag of the serializer, which reads it (`Stored`).  That
holds of an empty database, **every call of the provider keeps it** (`stored_call`), and so it holds
after any calls (`stored_run`).
-/

namespace Durare.Sqlite

open List Option

/-! ## Workflow rows -/

/-- The primary key and the unique index of `workflow_status`. -/
structure SoundRows (t : Table String StatusRow) : Prop where
  keyed : ∀ id row, t.lookup id = some row → row.workflowUuid = id
  slots : ∀ id id' row row', t.lookup id = some row → t.lookup id' = some row' →
    Clash row row' → id = id'

/-- The row keeps its id, and keeps its deduplication slot or gives it up. -/
def Cedes (row row' : StatusRow) : Prop :=
  row'.workflowUuid = row.workflowUuid ∧ (row'.deduplicationId = none ∨
    row'.queueName = row.queueName ∧ row'.deduplicationId = row.deduplicationId)

theorem Cedes.rfl {row : StatusRow} : Cedes row row := ⟨.refl _, .inr ⟨.refl _, .refl _⟩⟩

theorem Cedes.clash {a a' b b' : StatusRow} (ha : Cedes a a') (hb : Cedes b b')
    (h : Clash a' b') : Clash a b := by
  obtain ⟨hqueue, hdedup, hq, hd⟩ := h
  rcases ha.2 with hnone | ⟨haq, had⟩
  · rw [hnone] at hdedup
    cases hdedup
  · rcases hb.2 with hnone | ⟨hbq, hbd⟩
    · rw [← hd, hnone] at hdedup
      cases hdedup
    · exact ⟨haq ▸ hqueue, had ▸ hdedup, by rw [← hbq, hq, haq], by rw [← hbd, hd, had]⟩

section

variable {t t' : Table String StatusRow} {id : String} {row : StatusRow}

theorem SoundRows.cede (h : SoundRows t) (hcede : ∀ id row', t'.lookup id = some row' →
    ∃ row, t.lookup id = some row ∧ Cedes row row') : SoundRows t' where
  keyed id row' hrow' := by
    obtain ⟨row, hrow, hkept⟩ := hcede id row' hrow'
    exact hkept.1.trans (h.keyed id row hrow)
  slots id₁ id₂ row₁ row₂ h₁ h₂ hclash := by
    obtain ⟨a, ha, hkept₁⟩ := hcede id₁ row₁ h₁
    obtain ⟨b, hb, hkept₂⟩ := hcede id₂ row₂ h₂
    exact h.slots id₁ id₂ a b ha hb (hkept₁.clash hkept₂ hclash)

variable {f : StatusRow → StatusRow}

theorem SoundRows.mapRows (h : SoundRows t) (hf : ∀ row, Cedes row (f row)) :
    SoundRows (t.mapRows f) := by
  refine h.cede fun id row' hrow' => ?_
  rw [AList.lookup_mapRows] at hrow'
  obtain ⟨row, hrow, rfl⟩ := map_eq_some_iff.mp hrow'
  exact ⟨row, hrow, hf row⟩

theorem SoundRows.modify (h : SoundRows t) (hf : ∀ row, Cedes row (f row)) :
    SoundRows (t.modify id f) := by
  refine h.cede fun id' row' hrow' => ?_
  rw [AList.lookup_modify] at hrow'
  split at hrow'
  · next hid =>
      subst hid
      obtain ⟨row, hrow, rfl⟩ := map_eq_some_iff.mp hrow'
      exact ⟨row, hrow, hf row⟩
  · exact ⟨row', hrow', .rfl⟩

theorem SoundRows.retain (h : SoundRows t) (p : String → Bool) : SoundRows (t.retain p) :=
  h.cede fun _ row' hrow' => ⟨row', AList.lookup_of_retain hrow', .rfl⟩

theorem SoundRows.replace (h : SoundRows t) (hrow : t.lookup id = some row) {row' : StatusRow}
    (hcede : Cedes row row') : SoundRows (t.insert id row') := by
  refine h.cede (AList.forall_lookup_insert (fun id' row'' hrow'' => ⟨row'', hrow'', .rfl⟩) ?_)
  exact ⟨row, hrow, hcede⟩

/-- A row that takes a slot takes a free one. -/
theorem SoundRows.insert {db : Db} (h : SoundRows db.workflowStatus)
    (hslot : dedupTaken db row = false) :
    SoundRows (db.workflowStatus.insert row.workflowUuid row) where
  keyed := AList.forall_lookup_insert h.keyed rfl
  slots id₁ id₂ row₁ row₂ h₁ h₂ hclash := by
    have hfree := dedupTaken_eq_false.mp hslot
    by_cases hid₁ : id₁ = row.workflowUuid
    · by_cases hid₂ : id₂ = row.workflowUuid
      · exact hid₁.trans hid₂.symm
      · subst hid₁
        cases Option.some.inj ((AList.lookup_insert _).symm.trans h₁)
        have hold := (AList.lookup_insert_ne hid₂).symm.trans h₂
        exact (hfree id₂ row₂ hold (h.keyed id₂ row₂ hold ▸ hid₂) hclash).elim
    · have hold₁ := (AList.lookup_insert_ne hid₁).symm.trans h₁
      by_cases hid₂ : id₂ = row.workflowUuid
      · subst hid₂
        cases Option.some.inj ((AList.lookup_insert _).symm.trans h₂)
        obtain ⟨hqueue, hdedup, hq, hd⟩ := hclash
        refine (hfree id₁ row₁ hold₁ (h.keyed id₁ row₁ hold₁ ▸ hid₁) ?_).elim
        exact ⟨hq ▸ hqueue, hd ▸ hdedup, hq.symm, hd.symm⟩
      · exact h.slots id₁ id₂ row₁ row₂ hold₁ ((AList.lookup_insert_ne hid₂).symm.trans h₂) hclash

end

theorem cedes_cancelRow (now : DateTime) (row : StatusRow) : Cedes row (cancelRow now row) := by
  unfold cancelRow
  split
  · exact .rfl
  · exact ⟨rfl, .inl rfl⟩

/-! ## Values -/

/-- The value has the tag of the serializer, which reads it. -/
def Tagged (X : TextCodec) (s : Serializer) (format : Option String) (text : String) : Prop :=
  format = some s.name ∧ ∃ v, decode X s (some s.name) text = .ok v

/-- A checkpoint without outcome, or one with the tag of the serializer, which reads the output. -/
def OperationTagged (X : TextCodec) (s : Serializer) (row : OperationRow) : Prop :=
  (row.output = none ∧ row.error = none) ∨ row.serialization = some s.name ∧
    ∀ text, row.output = some text → Tagged X s row.serialization text

/-- **What a database holds that one serializer has written.** -/
structure Stored (X : TextCodec) (s : Serializer) (db : Db) : Prop where
  rows : SoundRows db.workflowStatus
  operations : ∀ k row, db.operationOutputs.lookup k = some row → OperationTagged X s row
  messages : ∀ n ∈ db.notifications, Tagged X s n.serialization n.message
  events : ∀ k e, db.workflowEvents.lookup k = some e → Tagged X s e.2 e.1
  entries : ∀ r ∈ db.streams, r.value = STREAM_CLOSED_SENTINEL ∨ Tagged X s r.serialization r.value
  places : db.streams.Pairwise fun a b => ¬Collide a b

variable {X : TextCodec} {s : Serializer} {db db' : Db} {now : DateTime} {uuid : String}
  {text : String}

theorem Tagged.reads {format : Option String} (h : Tagged X s format text) :
    ∃ v, decode X s format text = .ok v := by
  obtain ⟨rfl, v, hv⟩ := h
  exact ⟨v, hv⟩

variable {row : OperationRow}

theorem Tagged.operation (houtput : row.output = some text)
    (h : Tagged X s row.serialization text) : OperationTagged X s row := by
  refine .inr ⟨h.1, fun text' htext' => ?_⟩
  cases Option.some.inj (houtput.symm.trans htext')
  exact h

theorem stored_empty : Stored X s {} where
  rows := ⟨fun _ _ h => (by cases h), fun _ _ _ _ h => (by cases h)⟩
  operations _ _ h := by cases h
  messages _ h := by cases h
  events _ _ h := by cases h
  entries _ h := by cases h
  places := .nil

namespace Stored

theorem withRows (h : Stored X s db) {t : Table String StatusRow} (ht : SoundRows t) :
    Stored X s { db with workflowStatus := t } :=
  { h with rows := ht }

theorem insertOperation (h : Stored X s db) {id : String} {seq : Int}
    (hrow : OperationTagged X s row) (hinsert : insertOperation id seq row db = .ok db') :
    Stored X s db' := by
  rw [insertOperation_ok hinsert]
  exact { h with operations := AList.forall_lookup_insertNew h.operations hrow }

end Stored

/-! ## Every call -/

theorem lt_nextOffset {r : StreamRow} {rows : List StreamRow} (h : r ∈ rows) :
    r.offset < nextOffset rows := by
  have hmono (rows : List StreamRow) : ∀ m, m ≤ rows.foldl (fun m r => max m (r.offset + 1)) m := by
    induction rows with
    | nil => exact le_refl
    | cons row rows ih => exact fun m => (le_max_left m _).trans (ih _)
  unfold nextOffset
  generalize (0 : Int) = m
  induction rows generalizing m with
  | nil => cases h
  | cons row rows ih =>
    rcases mem_cons.mp h with rfl | h
    · exact lt_of_lt_of_le (Int.lt_succ _) ((le_max_right m _).trans (hmono rows _))
    · exact ih h _

section

variable (hX : X.Lawful) (hs : s.BuiltIn)
include hX hs

theorem exists_tagged (v : Value) :
    ∃ text, s.encode X v = .ok text ∧ Tagged X s (some s.name) text := by
  obtain ⟨text, htext, hread⟩ := decode_encode (hX.carries v) hs hs.neutral
  exact ⟨text, htext, rfl, v, hread⟩

variable (h : Stored X s db)
include h

theorem stored_writeStream (id key : String) (value : Option Value) (functionId : Int) :
    Stored X s (writeStream X s id key value functionId db).2 := by
  have hput (text : String) (format : Option String)
      (htag : text = STREAM_CLOSED_SENTINEL ∨ Tagged X s format text) :
      Stored X s { db with streams := db.streams ++ [⟨id, key, text, nextOffset
        (db.streams.filter fun r => r.workflowUuid = id && r.key = key), functionId,
          format⟩] } := by
    refine { h with entries := ?_, places := ?_ }
    · exact forall_mem_append.mpr ⟨h.entries, forall_mem_singleton.mpr htag⟩
    · refine pairwise_append.mpr ⟨h.places, pairwise_singleton _ _, fun a ha b hb hab => ?_⟩
      cases mem_singleton.mp hb
      have hmem : a ∈ db.streams.filter fun r => r.workflowUuid = id && r.key = key :=
        mem_filter.mpr ⟨ha, by simp [hab.1, hab.2.1]⟩
      exact absurd hab.2.2 (lt_nextOffset hmem).ne
  cases value with
  | none =>
    simp only [writeStream]
    split_ifs
    · exact h
    · exact h
    · exact hput _ _ (.inl rfl)
  | some v =>
    obtain ⟨text, htext, htag⟩ := exists_tagged hX hs v
    simp only [writeStream, htext, Except.map]
    split_ifs
    · exact h
    · exact h
    · exact hput _ _ (.inr htag)

theorem stored_recordStepResult (id : String) (seq : Int) (name : String) (value : Value)
    (error : Option String) (started : Option Int) :
    Stored X s (recordStepResult X s now id seq name value error started db).2 := by
  obtain ⟨text, htext, htag⟩ := exists_tagged hX hs value
  cases error with
  | some e =>
    simp only [recordStepResult, Option.isSome_some, ↓reduceIte]
    split
    · exact h
    · next hinsert => exact h.insertOperation (.inr ⟨rfl, fun _ ht => by cases ht⟩) hinsert
  | none =>
    simp only [recordStepResult, htext, Except.map, Option.isSome_none,
      Bool.false_eq_true, ↓reduceIte]
    split
    · exact h
    · next hinsert => exact h.insertOperation (htag.operation rfl) hinsert

omit hX hs in
/-- A message that is consumed becomes a checkpoint with the tag it has. -/
theorem stored_consumeNotification (id topic : String) (seq : Int) (name : String) :
    Stored X s (consumeNotification X s id topic seq name db).2 := by
  unfold consumeNotification
  split
  · exact h
  · next n i holdest =>
      dsimp only
      split
      · exact h
      · next hinsert =>
          have hn := fst_mem_of_mem_zipIdx (List.mem_of_mem_filter (List.minOn?_mem holdest))
          have hmarked := h.insertOperation ((h.messages n hn).operation rfl) hinsert
          refine { hmarked with messages := fun n' hn' => ?_ }
          obtain ⟨j, hj⟩ := mem_iff_getElem?.mp hn'
          rw [markConsumed, getElem?_modify] at hj
          obtain ⟨old, hold, rfl⟩ := map_eq_some_iff.mp hj
          have htag := h.messages old (mem_of_getElem? hold)
          split <;> exact htag

end

theorem stored_insertWorkflowStatus (status : WorkflowStatus) (h : Stored X s db) :
    Stored X s (insertWorkflowStatus X s now status db).2 := by
  unfold insertWorkflowStatus
  split
  · exact h
  · split
    · exact h
    · dsimp only
      split_ifs with hslot
      · exact h
      · exact h.withRows (h.rows.insert (Bool.eq_false_iff.mpr hslot))

/-- **Every call of the provider keeps it.** -/
theorem stored_call (hX : X.Lawful) (hs : s.BuiltIn) (c : ProviderCall) (h : Stored X s db) :
    Stored X s (call X s c now uuid db).2 := by
  cases c with
  | insertWorkflowStatus => exact stored_insertWorkflowStatus _ h
  | recordStepResult => exact stored_recordStepResult hX hs h ..
  | recordChildWorkflow | recordPatch =>
    simp only [call, recordChildWorkflow, recordPatch, insertOnly]
    split
    · exact h
    · next hinsert => exact h.insertOperation (.inl ⟨rfl, rfl⟩) hinsert
  | insertNotification _ _ message =>
    obtain ⟨text, htext, htag⟩ := exists_tagged hX hs message
    simp only [call, insertNotification, htext]
    split_ifs
    · exact h
    · exact h
    · refine { h with messages := forall_mem_append.mpr ⟨h.messages, ?_⟩ }
      exact forall_mem_singleton.mpr htag
  | consumeNotification => exact stored_consumeNotification h ..
  | upsertEvent _ _ value =>
    obtain ⟨text, htext, htag⟩ := exists_tagged hX hs value
    simp only [call, upsertEvent, htext]
    split_ifs
    · exact h
    · exact { h with events := AList.forall_lookup_insert h.events htag }
  | writeStream => exact stored_writeStream hX hs h ..
  | setWorkflowStatus id status output error =>
    simp only [call, setWorkflowStatus]
    split
    · exact h
    · split
      · next row hrow =>
          split_ifs
          · exact h
          · refine h.withRows (h.rows.replace hrow ⟨rfl, ?_⟩)
            by_cases hend : status.isTerminal
            · exact .inl (if_pos hend)
            · exact .inr ⟨rfl, if_neg hend⟩
      · exact h
  | cancelWorkflow id => exact h.withRows (h.rows.modify (cedes_cancelRow now))
  | cancelWorkflows ids =>
    refine h.withRows (h.rows.mapRows fun row => ?_)
    split
    · exact cedes_cancelRow now row
    · exact .rfl
  | resumeWorkflow id =>
    simp only [call, resumeWorkflow]
    split
    · next row hrow =>
        split_ifs
        · exact h.withRows (h.rows.replace hrow ⟨rfl, .inl rfl⟩)
        · exact h
    · exact h
  | resumeWorkflows ids =>
    refine h.withRows (h.rows.mapRows fun row => ?_)
    split
    · exact ⟨rfl, .inl rfl⟩
    · exact .rfl
  | enqueueExisting id queue =>
    simp only [call, enqueueExisting]
    split
    · next row hrow =>
        split_ifs with hslot
        · exact h
        · obtain rfl : row.workflowUuid = id := h.rows.keyed id row hrow
          exact h.withRows (h.rows.insert (Bool.eq_false_iff.mpr hslot))
    · exact h
  | bumpRecoveryAttempts id max =>
    simp only [call, bumpRecoveryAttempts]
    split
    · next row hrow =>
        refine h.withRows (h.rows.replace hrow ?_)
        simp only [bumpRow]
        split
        · exact ⟨rfl, .inl rfl⟩
        · exact ⟨rfl, .inr ⟨rfl, rfl⟩⟩
    · exact h
  | dequeueWorkflows req =>
    have hclaim (ids : List String) (t : Table String StatusRow) (ht : SoundRows t) :
        SoundRows (ids.foldl (fun t id => t.modify id (claimRow now req)) t) := by
      induction ids generalizing t with
      | nil => exact ht
      | cons id ids ih => exact ih _ (ht.modify fun row => ⟨rfl, .inr ⟨rfl, rfl⟩⟩)
    exact h.withRows (hclaim _ _ h.rows)
  | transitionDelayedWorkflows nowMs =>
    refine h.withRows (h.rows.mapRows fun row => ?_)
    split
    · exact ⟨rfl, .inr ⟨rfl, rfl⟩⟩
    · exact .rfl
  | deleteWorkflows ids children =>
    simp only [call, deleteWorkflows]
    constructor <;> dsimp only
    · exact h.rows.retain _
    · exact fun k row hrow => h.operations k row (AList.lookup_of_retain hrow)
    · exact fun n hn => h.messages n (mem_of_mem_filter hn)
    · exact fun k e he => h.events k e (AList.lookup_of_retain he)
    · exact fun r hr => h.entries r (mem_of_mem_filter hr)
    · exact h.places.filter _
  | getStepResult | getEventValue | listWorkflows =>
    simp only [call, getStepResult, getEventValue, listWorkflows]
    split <;> exact h
  | getDeduplicatedWorkflow | getWorkflowStatus | checkChildWorkflow | getStepName |
    queuePartitions => exact h

/-- **What any calls leave in an empty database** is what one serializer has written. -/
theorem stored_run (hX : X.Lawful) (hs : s.BuiltIn)
    (calls : List (ProviderCall × DateTime × String)) :
    Stored X s (calls.foldl (fun db c => (call X s c.1 c.2.1 c.2.2 db).2) {}) := by
  suffices h : ∀ db, Stored X s db →
      Stored X s (calls.foldl (fun db c => (call X s c.1 c.2.1 c.2.2 db).2) db) from
    h {} stored_empty
  induction calls with
  | nil => exact fun db h => h
  | cons c calls ih => exact fun db h => ih _ (stored_call hX hs c.1 h)

end Durare.Sqlite
