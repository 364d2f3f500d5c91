import Durare.Debounce.Path

/-!
# Debounce/Ledger — what is stored while calls are debounced

What holds of the store whichever calls, collectors and others have been at it: every collector is
the one some call started, its mail and its log hold messages of calls with its key, an
acknowledgement means that the message was taken, and its target was started with the input of its
last round.

* `Ledger` — the invariant, one statement for each kind of row; `Grows` — what is never taken back.
* `Ledger.step` — the invariant after a change: only the rows that are new have to be looked at.
* `Ledger.written`, `.recorded`, `.acked`, `.mailed`, `.marked` — the changes that calls and
  collectors make; `LeavesCalls` — those that others may make.
-/

namespace Durare.Debounce

open List

open Memory

variable {ι : Type} (calls : ι → Call)

/-- The uuids of all calls are different, and none is empty. -/
structure Distinct : Prop where
  inj : ∀ i j k l, (calls i).draws k = (calls j).draws l → i = j ∧ k = l
  nonempty : ∀ i k, (calls i).draws k ≠ ""

section

variable {calls} (hd : Distinct calls) {i j : ι} {m k : Nat}

include hd

theorem Distinct.collectorId (h : (calls i).collectorId m = (calls j).collectorId k) :
    i = j ∧ m = k := by
  obtain ⟨hi, hm⟩ := hd.inj _ _ _ _ h
  exact ⟨hi, by omega⟩

theorem Distinct.targetId (h : (calls i).targetId m = (calls j).targetId k) : i = j ∧ m = k := by
  obtain ⟨hi, hm⟩ := hd.inj _ _ _ _ h
  exact ⟨hi, by omega⟩

theorem Distinct.messageId (h : (calls i).messageId m = (calls j).messageId k) : i = j ∧ m = k := by
  obtain ⟨hi, hm⟩ := hd.inj _ _ _ _ h
  exact ⟨hi, by omega⟩

theorem Distinct.collectorId_ne_targetId : (calls i).collectorId m ≠ (calls j).targetId k := by
  intro h
  obtain ⟨-, hm⟩ := hd.inj _ _ _ _ h
  omega

end

/-! ## The invariant -/

/-- A message of a call with the key of the call `i`. -/
def IsMessage (i : ι) (v : Value) : Prop :=
  ∃ j k, (calls j).key = (calls i).key ∧ v = .object ((calls j).message k).fields

/-- What a row of the workflow table says about the collectors. -/
structure RowOk (g : Inner) (id : String) (row : WorkflowStatus) : Prop where
  keyed : row.id = id
  /-- the row of a collector is the one its call inserted, until it is over -/
  input : ∀ i m, id = (calls i).collectorId m →
    row.input = .object ((calls i).debouncerInput m).fields
  key : ∀ i m k, id = (calls i).collectorId m → row.dedupId = some k → k = (calls i).key
  ended : ∀ i m, id = (calls i).collectorId m → row.status = .success →
    (g.workflows.lookup ((calls i).targetId m)).isSome
  /-- only collectors are deduplicated on the internal queue -/
  slot : ∀ k, row.queueName = some INTERNAL_QUEUE → row.dedupId = some k →
    ∃ i m, id = (calls i).collectorId m
  /-- a target has been started by its collector, with the input of the last round -/
  parent : ∀ i m, id = (calls i).targetId m → row.parentWorkflowId = some ((calls i).collectorId m)
  child : ∀ i m, row.parentWorkflowId = some ((calls i).collectorId m) →
    id = (calls i).targetId m ∧ row.name = (calls i).target ∧
      ∃ start r, Halts ((calls i).debouncerInput m) (log g ((calls i).collectorId m)) start r ∧
        row.input = r.current ((calls i).debouncerInput m)

/-- What a row of a collector's log says. -/
structure LogOk (g : Inner) (i : ι) (m : Nat) (row : StepRow) : Prop where
  received : row.name = "DBOS.recv" → stepRowOutcome row = .output .null ∨
    ∃ v, IsMessage calls i v ∧ stepRowOutcome row = .output v
  child : ∀ c, row.childWorkflowId = some c →
    c = (calls i).targetId m ∧ (g.workflows.lookup c).isSome

/-- The collector has taken a message with this id. -/
def Took (g : Inner) (i : ι) (m : Nat) (key : String) : Prop :=
  ∃ start r msg earlier, Leads ((calls i).debouncerInput m) (log g ((calls i).collectorId m)) start
    r ∧ r.received = msg :: earlier ∧ msg.id = key

/-- **What is stored while calls are debounced.** -/
structure Ledger (g : Inner) : Prop where
  rows : ∀ id row, g.workflows.lookup id = some row → RowOk calls g id row
  logs : ∀ i m n row, log g ((calls i).collectorId m) n = some row → LogOk calls g i m row
  acks : ∀ i m key v, g.events.lookup ((calls i).collectorId m, key) = some v → Took calls g i m key
  mail : ∀ i m note, note ∈ g.notifications → note.destinationId = (calls i).collectorId m →
    note.topic = DEBOUNCER_TOPIC → IsMessage calls i note.message

/-- Workflows stay, and the rows of collectors stay as they are. -/
structure Grows (g g' : Inner) : Prop where
  rows : ∀ id, (g.workflows.lookup id).isSome → (g'.workflows.lookup id).isSome
  logs : ∀ i m, Extends (log g ((calls i).collectorId m)) (log g' ((calls i).collectorId m))

variable {calls} {g g' g'' : Inner}

theorem Grows.refl (g : Inner) : Grows calls g g := ⟨fun _ h => h, fun _ _ => .refl _⟩

theorem Grows.trans (h : Grows calls g g') (h' : Grows calls g' g'') : Grows calls g g'' :=
  ⟨fun id hid => h'.rows id (h.rows id hid), fun i m => (h.logs i m).trans (h'.logs i m)⟩

variable {id : String} {row : WorkflowStatus}

theorem RowOk.mono (hg : Grows calls g g') (h : RowOk calls g id row) : RowOk calls g' id row where
  keyed := h.keyed
  input := h.input
  key := h.key
  ended i m hid hstatus := hg.rows _ (h.ended i m hid hstatus)
  slot := h.slot
  parent := h.parent
  child i m hparent := by
    obtain ⟨hid, hname, start, r, hhalts, hinput⟩ := h.child i m hparent
    exact ⟨hid, hname, start, r, hhalts.mono (hg.logs i m), hinput⟩

variable {i : ι} {m : Nat}

theorem LogOk.mono {row : StepRow} (hg : Grows calls g g') (h : LogOk calls g i m row) :
    LogOk calls g' i m row where
  received := h.received
  child c hc := ⟨(h.child c hc).1, hg.rows c (h.child c hc).2⟩

theorem Took.mono {key : String} (hg : Grows calls g g') (h : Took calls g i m key) :
    Took calls g' i m key := by
  obtain ⟨start, r, msg, earlier, hleads, hreceived, hid⟩ := h
  exact ⟨start, r, msg, earlier, hleads.mono (hg.logs i m), hreceived, hid⟩

/-- **The invariant after a change**: what was there stays right, and what is new is looked at. -/
theorem Ledger.step (h : Ledger calls g) (hg : Grows calls g g')
    (hrows : ∀ id row, g'.workflows.lookup id = some row →
      g.workflows.lookup id = some row ∨ RowOk calls g' id row)
    (hlogs : ∀ i m n row, log g' ((calls i).collectorId m) n = some row →
      log g ((calls i).collectorId m) n = some row ∨ LogOk calls g' i m row)
    (hacks : ∀ i m key v, g'.events.lookup ((calls i).collectorId m, key) = some v →
      g.events.lookup ((calls i).collectorId m, key) = some v ∨ Took calls g' i m key)
    (hmail : ∀ i m note, note ∈ g'.notifications → note.destinationId = (calls i).collectorId m →
      note.topic = DEBOUNCER_TOPIC → (∃ old ∈ g.notifications, old.destinationId =
        note.destinationId ∧
        old.topic = note.topic ∧ old.message = note.message) ∨ IsMessage calls i note.message) :
    Ledger calls g' where
  rows id row hrow := (hrows id row hrow).elim (fun hold => (h.rows id row hold).mono hg)
    fun hnew => hnew
  logs i m n row hrow := (hlogs i m n row hrow).elim (fun hold => (h.logs i m n row hold).mono hg)
    fun hnew => hnew
  acks i m key v hv := (hacks i m key v hv).elim (fun hold => (h.acks i m key v hold).mono hg)
    fun hnew => hnew
  mail i m note hnote hdest htopic := by
    rcases hmail i m note hnote hdest htopic with ⟨old, hold, hdest', htopic', hmessage⟩ | hnew
    · rw [← hmessage]
      exact h.mail i m old hold (hdest'.trans hdest) (htopic'.trans htopic)
    · exact hnew

/-- **A collector receives messages of calls with its key.** -/
theorem Ledger.received (h : Ledger calls g) {start : Int} {r : Round}
    (hleads : Leads ((calls i).debouncerInput m) (log g ((calls i).collectorId m)) start r) :
    ∀ msg ∈ r.received, ∃ j k, (calls j).key = (calls i).key ∧ msg = (calls j).message k := by
  refine hleads.forall_received fun n msg hread => ?_
  obtain ⟨row, hrow, hread⟩ := Option.bind_eq_some_iff.mp hread
  by_cases hname : row.name = "DBOS.recv"
  · rw [if_pos hname] at hread
    rcases (h.logs i m n row hrow).received hname with hnull | ⟨v, ⟨j, k, hkey, rfl⟩, hv⟩
    · rw [hnull] at hread
      cases hread
    · rw [hv] at hread
      exact ⟨j, k, hkey, (Option.some.inj (Option.some.inj hread)).symm⟩
  · rw [if_neg hname] at hread
    cases hread

/-! ## What a step keeps -/

/-- The invariant holds, nothing is taken back, and of the collectors' logs only that of `own`
changes. -/
structure Kept (calls : ι → Call) (own : Option (ι × Nat)) (g g' : Inner) : Prop where
  ledger : Ledger calls g'
  grows : Grows calls g g'
  others : ∀ i m, own ≠ some (i, m) →
    log g' ((calls i).collectorId m) = log g ((calls i).collectorId m)

variable {own : Option (ι × Nat)}

theorem Kept.refl (h : Ledger calls g) : Kept calls own g g :=
  ⟨h, .refl g, fun _ _ _ => rfl⟩

theorem Kept.trans (h : Kept calls own g g') (h' : Kept calls own g' g'') : Kept calls own g g'' :=
  ⟨h'.ledger, h.grows.trans h'.grows, fun i m hne => (h'.others i m hne).trans (h.others i m hne)⟩

section

variable {own : Option (ι × Nat)} (h : Ledger calls g)

include h

theorem Ledger.written (hrow : ∀ g', Grows calls g g' → RowOk calls g' id row) :
    Kept calls own g { g with workflows := g.workflows.insert id row } := by
  have hg : Grows calls g { g with workflows := g.workflows.insert id row } := by
    refine ⟨fun other hother => ?_, fun _ _ => .refl _⟩
    by_cases hid : other = id
    · subst hid
      rw [AList.lookup_insert]
      rfl
    · rw [AList.lookup_insert_ne hid]
      exact hother
  refine ⟨h.step hg (fun other new hnew => ?_) (fun _ _ _ _ => .inl) (fun _ _ _ _ => .inl)
    fun _ _ note hnote _ _ => .inl ⟨note, hnote, rfl, rfl, rfl⟩, hg, fun _ _ _ => rfl⟩
  by_cases hid : other = id
  · subst hid
    rw [AList.lookup_insert] at hnew
    obtain rfl := Option.some.inj hnew
    exact .inr (hrow _ hg)
  · rw [AList.lookup_insert_ne hid] at hnew
    exact .inl hnew

theorem Ledger.recorded (hd : Distinct calls) {n : Int} {row : StepRow}
    (hrow : ∀ g', Grows calls g g' → LogOk calls g' i m row) :
    Kept calls (some (i, m)) g
      { g with steps := g.steps.insertNew ((calls i).collectorId m, n) row } := by
  have hg : Grows calls g { g with steps := g.steps.insertNew ((calls i).collectorId m, n) row } :=
    ⟨fun _ hid => hid, fun j k l old hold => AList.lookup_insertNew_of_some hold _ _⟩
  refine ⟨h.step hg (fun _ _ => .inl) (fun j k l new hnew => ?_) (fun _ _ _ _ => .inl)
    fun _ _ note hnote _ _ => .inl ⟨note, hnote, rfl, rfl, rfl⟩, hg, fun j k hne => ?_⟩
  · by_cases hkey : ((calls j).collectorId k, l) = ((calls i).collectorId m, n)
    · obtain ⟨rfl, rfl⟩ := hd.collectorId (Prod.mk.inj hkey).1
      obtain rfl := (Prod.mk.inj hkey).2
      rw [log, AList.lookup_insertNew_self] at hnew
      cases hold : g.steps.lookup ((calls j).collectorId k, l) with
      | some old =>
        rw [hold] at hnew
        exact .inl (hold.trans hnew)
      | none =>
        rw [hold] at hnew
        obtain rfl := Option.some.inj hnew
        exact .inr (hrow _ hg)
    · rw [log, AList.lookup_insertNew_ne _ _ hkey] at hnew
      exact .inl hnew
  · funext l
    refine AList.lookup_insertNew_ne _ _ fun hkey => hne ?_
    obtain ⟨rfl, rfl⟩ := hd.collectorId (Prod.mk.inj hkey).1
    rfl

theorem Ledger.acked (hd : Distinct calls) {key : String} {v : Value}
    (htook : Took calls g i m key) :
    Kept calls own g { g with events := g.events.insert ((calls i).collectorId m, key) v } := by
  have hg : Grows calls g { g with events := g.events.insert ((calls i).collectorId m, key) v } :=
    ⟨fun _ hid => hid, fun _ _ => .refl _⟩
  refine ⟨h.step hg (fun _ _ => .inl) (fun _ _ _ _ => .inl) (fun j k other new hnew => ?_)
    fun _ _ note hnote _ _ => .inl ⟨note, hnote, rfl, rfl, rfl⟩, hg, fun _ _ _ => rfl⟩
  by_cases hkey : ((calls j).collectorId k, other) = ((calls i).collectorId m, key)
  · obtain ⟨rfl, rfl⟩ := hd.collectorId (Prod.mk.inj hkey).1
    obtain rfl := (Prod.mk.inj hkey).2
    exact .inr (htook.mono hg)
  · rw [AList.lookup_insert_ne hkey] at hnew
    exact .inl hnew

theorem Ledger.mailed {note : NotificationRow}
    (hnote : ∀ i m, note.destinationId = (calls i).collectorId m → IsMessage calls i note.message) :
    Kept calls own g { g with notifications := g.notifications ++ [note] } := by
  have hg : Grows calls g { g with notifications := g.notifications ++ [note] } :=
    ⟨fun _ hid => hid, fun _ _ => .refl _⟩
  refine ⟨h.step hg (fun _ _ => .inl) (fun _ _ _ _ => .inl) (fun _ _ _ _ => .inl)
    fun i m new hnew hdest _ => ?_, hg, fun _ _ _ => rfl⟩
  rcases mem_append.mp hnew with hold | hnew
  · exact .inl ⟨new, hold, rfl, rfl, rfl⟩
  · obtain rfl := mem_singleton.mp hnew
    exact .inr (hnote i m hdest)

theorem Ledger.marked (place : Nat) :
    Kept calls own g { g with notifications := markConsumed g.notifications place } := by
  have hg : Grows calls g { g with notifications := markConsumed g.notifications place } :=
    ⟨fun _ hid => hid, fun _ _ => .refl _⟩
  refine ⟨h.step hg (fun _ _ => .inl) (fun _ _ _ _ => .inl) (fun _ _ _ _ => .inl)
    fun i m new hnew _ _ => .inl ?_, hg, fun _ _ _ => rfl⟩
  obtain ⟨l, hl⟩ := mem_iff_getElem?.mp hnew
  rw [markConsumed, getElem?_modify] at hl
  obtain ⟨old, hold, rfl⟩ := Option.map_eq_some_iff.mp hl
  refine ⟨old, mem_of_getElem? hold, ?_⟩
  split
  · exact ⟨rfl, rfl, rfl⟩
  · exact ⟨rfl, rfl, rfl⟩

end

theorem RowOk.applyStatus {now : DateTime} {status : Status} {output : Option Value}
    {error : Option String} (h : RowOk calls g id row)
    (hover : ∀ i m, id = (calls i).collectorId m → status = .success →
      (g.workflows.lookup ((calls i).targetId m)).isSome) :
    RowOk calls g id (applyStatus now status output error row) := by
  have hdedup : ∀ k, (Memory.applyStatus now status output error row).dedupId = some k →
      row.dedupId = some k := by
    intro k hk
    dsimp only [Memory.applyStatus] at hk
    split at hk
    · cases hk
    · exact hk
  exact ⟨h.keyed, h.input, fun i m k hid hk => h.key i m k hid (hdedup k hk), hover,
    fun k hq hk => h.slot k hq (hdedup k hk), h.parent, h.child⟩

/-! ## The others -/

/-- What others may do: they leave workflows, collectors and their logs, events and mail alone, but
may cancel, park or dequeue a collector; they use no id of a call, start nothing for a collector,
and deduplicate nothing on the internal queue. -/
structure LeavesCalls (calls : ι → Call) (g g' : Inner) : Prop where
  stay : ∀ id, (g.workflows.lookup id).isSome → (g'.workflows.lookup id).isSome
  rows : ∀ id row', g'.workflows.lookup id = some row' →
    (∃ row, g.workflows.lookup id = some row ∧ row'.id = row.id ∧ row'.name = row.name ∧
      row'.input = row.input ∧ row'.parentWorkflowId = row.parentWorkflowId ∧
      ∀ i m, id = (calls i).collectorId m → (∀ k, row'.dedupId = some k → row.dedupId = some k) ∧
        (row'.status = .success → row.status = .success)) ∨
    row'.id = id ∧ ∀ i m, id ≠ (calls i).collectorId m ∧ id ≠ (calls i).targetId m ∧
      row'.parentWorkflowId ≠ some ((calls i).collectorId m)
  slots : ∀ id row' k, g'.workflows.lookup id = some row' → row'.queueName = some INTERNAL_QUEUE →
    row'.dedupId = some k → (∃ i m, id = (calls i).collectorId m) ∨
      ∃ row, g.workflows.lookup id = some row ∧ row.queueName = some INTERNAL_QUEUE ∧
        row.dedupId = some k
  logs : ∀ i m, log g' ((calls i).collectorId m) = log g ((calls i).collectorId m)
  events : ∀ i m key, g'.events.lookup ((calls i).collectorId m, key) =
    g.events.lookup ((calls i).collectorId m, key)
  mail : ∀ i m note, note ∈ g'.notifications → note.destinationId = (calls i).collectorId m →
    note.topic = DEBOUNCER_TOPIC → ∃ old ∈ g.notifications, old.destinationId = note.destinationId ∧
      old.topic = note.topic ∧ old.message = note.message

theorem LeavesCalls.refl (g : Inner) : LeavesCalls calls g g where
  stay _ h := h
  rows _ row h := .inl ⟨row, h, rfl, rfl, rfl, rfl, fun _ _ _ => ⟨fun _ h => h, fun h => h⟩⟩
  slots _ row _ h hqueue hdedup := .inr ⟨row, h, hqueue, hdedup⟩
  logs _ _ := rfl
  events _ _ _ := rfl
  mail _ _ note h _ _ := ⟨note, h, rfl, rfl, rfl⟩

theorem LeavesCalls.kept (he : LeavesCalls calls g g') (h : Ledger calls g) :
    Kept calls own g g' := by
  have hg : Grows calls g g' := ⟨he.stay, fun i m => by rw [he.logs]; exact .refl _⟩
  refine ⟨h.step hg (fun id row' hrow' => .inr ?_) (fun i m n row hrow => .inl ?_)
    (fun i m key v hv => .inl ?_) fun i m note hnote hdest htopic =>
      .inl (he.mail i m note hnote hdest htopic), hg, fun i m _ => he.logs i m⟩
  · have hslot : ∀ k, row'.queueName = some INTERNAL_QUEUE → row'.dedupId = some k →
        ∃ i m, id = (calls i).collectorId m := by
      intro k hqueue hdedup
      rcases he.slots id row' k hrow' hqueue hdedup with hcollector | ⟨row, hrow, hqueue, hdedup⟩
      · exact hcollector
      · exact (h.rows id row hrow).slot k hqueue hdedup
    rcases he.rows id row' hrow' with ⟨row, hrow, hkeyed, hname, hinput, hparent, hcollector⟩ |
      ⟨hkeyed, hforeign⟩
    · have hok := (h.rows id row hrow).mono hg
      refine ⟨hkeyed.trans hok.keyed, fun i m hid => hinput.trans (hok.input i m hid),
        fun i m k hid hk => hok.key i m k hid ((hcollector i m hid).1 k hk),
        fun i m hid hs => hok.ended i m hid ((hcollector i m hid).2 hs), hslot,
        fun i m hid => hparent.trans (hok.parent i m hid), fun i m hp => ?_⟩
      rw [hname, hinput]
      exact hok.child i m (hparent.symm.trans hp)
    · exact ⟨hkeyed, fun i m hid => ((hforeign i m).1 hid).elim,
        fun i m _ hid => ((hforeign i m).1 hid).elim, fun i m hid =>
          ((hforeign i m).1 hid).elim, hslot,
        fun i m hid => ((hforeign i m).2.1 hid).elim, fun i m hp => ((hforeign i m).2.2 hp).elim⟩
  · rw [he.logs] at hrow
    exact hrow
  · rw [he.events] at hv
    exact hv

end Durare.Debounce
