import Durare.Machinery.SealedLog
import Durare.Operations.System

/-!
# Streams/Log — the streams of the in-memory backend are sealed logs

The backend appends to a stream and refuses to append after the close sentinel, its **seal**.
`intact_run` says that every operation but an import keeps the streams intact.

A reader that asks for what lies behind the values it has got gets the rest of the values, and
learns that the stream is closed when it is.  `Reading` is such a reader beside any number of
writers, `Reading.follows` what it has got at any point of a history, and `stream_log_integrity`
puts the two together.
-/

namespace Durare.Memory

open List

open SealedLog

/-! ## Streams -/

/-- The log of a stream. -/
def streamOf (g : Inner) (workflowId key : String) : List (Option Value) :=
  (g.streams.lookup (workflowId, key)).getD []

theorem untilClosed_eq (entries : List (Option Value)) :
    untilClosed entries = upToSeal entries := by
  induction entries with
  | nil => rfl
  | cons e entries ih => cases e with
    | none => rfl
    | some v => simp [untilClosed, upToSeal, ih]

theorem readStream_eq (id key : String) (n : Nat) (g : Inner) :
    readStream id key n g = (.ok (upToSeal ((streamOf g id key).drop n)), g) := by
  have hn : (max (n : Int) 0).toNat = n := by omega
  rw [readStream, hn, untilClosed_eq]
  rfl

/-- **What a write leaves**: the log and the entry, unless it was sealed. -/
theorem streamOf_writeStream (id key : String) (value : Option Value) (g : Inner)
    (id' key' : String) : streamOf (writeStream id key value g).2 id' key' =
      if (id', key') = (id, key) ∧ isSealed (streamOf g id key) = false then
        streamOf g id key ++ [value]
      else streamOf g id' key' := by
  change streamOf (if isSealed (streamOf g id key) = true then (_, _) else (_, _) : _ × Inner).2
    id' key' = _
  cases hs : isSealed (streamOf g id key) with
  | true =>
    rw [if_pos rfl, if_neg (by simp)]
    change ((g.streams.insertNew (id, key) []).lookup (id', key')).getD [] = _
    rw [AList.lookup_insertNew]
    split
    · next hkey =>
        rw [streamOf, hkey]
        cases g.streams.lookup (id, key) <;> rfl
    · rfl
  | false =>
    rw [if_neg (by simp)]
    change ((g.streams.insert (id, key) (streamOf g id key ++ [value])).lookup
      (id', key')).getD [] = _
    by_cases hkey : (id', key') = (id, key)
    · rw [if_pos ⟨hkey, rfl⟩, hkey, AList.lookup_insert]
      rfl
    · rw [if_neg (fun h => hkey h.1), AList.lookup_insert_ne hkey]
      rfl

theorem writeStream_answer (id key : String) (value : Option Value) (g : Inner) :
    (writeStream id key value g).1 = if isSealed (streamOf g id key) then
      .error (.app ("stream `" ++ key ++ "` is already closed")) else .ok () := by
  change (if isSealed (streamOf g id key) = true then (_, _) else (_, _) : _ × Inner).1 = _
  split <;> rfl

theorem writeStream_frame (id key : String) (value : Option Value) (g : Inner) :
    (writeStream id key value g).2.steps = g.steps ∧
      (writeStream id key value g).2.workflows = g.workflows := by
  unfold writeStream
  dsimp only
  split
  · exact ⟨rfl, rfl⟩
  · exact ⟨rfl, rfl⟩

theorem prefix_writeStream (id key : String) (value : Option Value) (g : Inner)
    (id' key' : String) :
    streamOf g id' key' <+: streamOf (writeStream id key value g).2 id' key' := by
  rw [streamOf_writeStream]
  split
  · next happ =>
      cases happ.1
      exact prefix_append _ _
  · exact prefix_refl _

variable {g : Inner}

theorem streamOf_congr {g' : Inner} (heq : g'.streams = g.streams) (id key : String) :
    streamOf g' id key = streamOf g id key := by rw [streamOf, heq, streamOf]

/-- **What a call can do to a stream**: nothing, append to it, or delete it with its workflow. -/
theorem streamOf_call (c : ProviderCall) (now : DateTime) (uuid : String) (g : Inner)
    (id key : String) :
    streamOf (call c now uuid g).2 id key = streamOf g id key ∨
    (∃ value seq, c = .writeStream id key value seq ∧ isSealed (streamOf g id key) = false ∧
      streamOf (call c now uuid g).2 id key = streamOf g id key ++ [value]) ∨
    ∃ ids children, c = .deleteWorkflows ids children ∧ id ∈ deleteTargets ids children g ∧
      streamOf (call c now uuid g).2 id key = [] := by
  by_cases hfiles : Files c
  swap
  · exact .inl (streamOf_congr (sameFiles_call hfiles).streams id key)
  cases c with
  | writeStream id' key' value seq =>
    have hwrite := streamOf_writeStream id' key' value g id key
    split at hwrite
    · next happ =>
        obtain ⟨⟨⟩, hopen⟩ := happ
        exact .inr (.inl ⟨value, seq, rfl, hopen, hwrite⟩)
    · exact .inl hwrite
  | deleteWorkflows ids children =>
    have hdelete : streamOf (call (.deleteWorkflows ids children) now uuid g).2 id key =
        ((g.streams.retain fun k =>
          !(deleteTargets ids children g).contains k.1).lookup (id, key)).getD [] := rfl
    rw [AList.lookup_retain] at hdelete
    split at hdelete
    · exact .inl hdelete
    · next htarget => exact .inr (.inr ⟨ids, children, rfl, by simpa using htarget, hdelete⟩)
  | insertNotification dest topic message key' =>
    refine .inl (streamOf_congr ?_ id key)
    change (insertNotification now uuid dest topic message key' g).2.streams = _
    obtain ⟨-, heq⟩ | ⟨-, -, heq⟩ | ⟨-, -, heq⟩ :=
      insertNotification_cases now uuid dest topic message key' g
    all_goals rw [heq]
  | consumeNotification id' topic seq name =>
    refine .inl (streamOf_congr ?_ id key)
    change (consumeNotification id' topic seq name g).2.streams = _
    unfold consumeNotification
    split <;> rfl
  | recordStepResult | recordChildWorkflow | recordPatch | upsertEvent => exact .inl rfl
  | _ => exact False.elim hfiles

/-! ## Intact streams -/

/-- Every stream has at most one seal, and nothing after it. -/
def IntactStreams (g : Inner) : Prop := ∀ id key, Intact (streamOf g id key)

theorem intact_empty : IntactStreams {} := fun _ _ => intact_nil

theorem IntactStreams.congr {g' : Inner} (h : IntactStreams g) (heq : g'.streams = g.streams) :
    IntactStreams g' := by
  intro id key
  rw [streamOf, heq]
  exact h id key

theorem IntactStreams.write {g : Inner} (h : IntactStreams g) (id key : String)
    (value : Option Value) : IntactStreams (writeStream id key value g).2 := by
  intro id' key'
  rw [streamOf_writeStream]
  split
  · next happ => exact (h id key).append happ.2 value
  · exact h id' key'

theorem IntactStreams.delete (h : IntactStreams g) (ids : List String) (children : Bool) :
    IntactStreams (deleteWorkflows ids children g).2 := by
  intro id key
  change Intact (((g.streams.retain fun k =>
    !(deleteTargets ids children g).contains k.1).lookup (id, key)).getD [])
  rw [AList.lookup_retain]
  split
  · exact h id key
  · exact intact_nil

/-- An operation that stores no stream from elsewhere. -/
def Operation.Native : Operation → Prop
  | importWorkflow _ => False
  | _ => True

/-- **Every operation but an import keeps the streams intact.** -/
theorem intact_run {X : TextCodec} {now : DateTime} {uuid : String} {op : Operation}
    (hop : op.Native) (h : IntactStreams g) : IntactStreams (op.run X now uuid g) := by
  by_cases hfiles : op.Files
  · cases op with
    | call c =>
      intro id key
      change Intact (streamOf (call c now uuid g).2 id key)
      obtain heq | ⟨value, -, -, hopen, heq⟩ | ⟨-, -, -, -, heq⟩ :=
        streamOf_call c now uuid g id key
      · exact heq ▸ h id key
      · exact heq ▸ (h id key).append hopen value
      · exact heq ▸ intact_nil
    | forkWorkflow params =>
      refine h.congr ?_
      change (forkWorkflow now params g).2.streams = _
      unfold forkWorkflow
      split <;> rfl
    | garbageCollect cutoff threshold =>
      change IntactStreams (garbageCollect cutoff threshold g).2
      rw [garbageCollect_state]
      exact h.delete _ _
    | importWorkflow => exact absurd hop id
    | _ => exact absurd hfiles id
  · exact h.congr (sameFiles_run hfiles).streams

/-! ## A reader -/

/-- The store, and what a reader of one stream has got. -/
structure Reading where
  store : Inner
  received : List Value := []

/-- Somebody writes to a stream, or the reader reads on. -/
inductive Reading.Event where
  | write (workflowId key : String) (value : Option Value)
  | read

namespace Reading

/-- The batch the reader gets if it reads on. -/
def batch (id key : String) (r : Reading) : Except Error (List Value × Bool) :=
  (readStream id key r.received.length r.store).1

/-- One event. -/
def apply (id key : String) (r : Reading) : Event → Reading
  | .write id' key' value => { r with store := (writeStream id' key' value r.store).2 }
  | .read => match r.batch id key with
    | .ok (batch, _) => { r with received := r.received ++ batch }
    | .error _ => r

/-- What happens in a history. -/
def run (id key : String) (r : Reading) (es : List Event) : Reading := es.foldl (apply id key) r

/-- The reader has got the first values of the stream, and the streams are intact. -/
structure Follows (id key : String) (r : Reading) : Prop where
  intact : IntactStreams r.store
  got : r.received <+: values (streamOf r.store id key)

variable {id key : String} {r : Reading}

/-- **One read**: the values that are still missing, and whether the stream is closed. -/
theorem Follows.batch_eq (h : r.Follows id key) : r.batch id key =
    .ok ((values (streamOf r.store id key)).drop r.received.length,
      isSealed (streamOf r.store id key)) := by
  have hvisible := (h.intact id key).visible_eq
  rw [batch, readStream_eq, upToSeal_drop (by rw [hvisible]; exact h.got.length_le), hvisible]

/-- After it the reader has got all there is. -/
theorem Follows.read (h : r.Follows id key) :
    r.apply id key .read = { r with received := values (streamOf r.store id key) } := by
  rw [Reading.apply, h.batch_eq]
  exact congrArg (Reading.mk r.store) (prefix_append_drop h.got).symm

/-- **One event keeps it.** -/
theorem Follows.apply (h : r.Follows id key) (e : Event) : (r.apply id key e).Follows id key := by
  cases e with
  | write id' key' value =>
    refine ⟨h.intact.write id' key' value, h.got.trans ?_⟩
    have hgrown := visible_mono (prefix_writeStream id' key' value r.store id key)
    rwa [(h.intact id key).visible_eq, (h.intact.write id' key' value id key).visible_eq] at hgrown
  | read =>
    rw [h.read]
    exact ⟨h.intact, prefix_refl _⟩

/-- **A history keeps it.** -/
theorem Follows.run (h : r.Follows id key) (es : List Event) :
    (r.run id key es).Follows id key := by
  induction es generalizing r with
  | nil => exact h
  | cons e es ih => exact ih (h.apply e)

theorem prefix_run (id' key' : String) (es : List Event) :
    streamOf r.store id' key' <+: streamOf (r.run id key es).store id' key' := by
  induction es generalizing r with
  | nil => exact prefix_refl _
  | cons e es ih =>
    refine List.IsPrefix.trans ?_ ih
    cases e with
    | write id key value => exact prefix_writeStream id key value r.store id' key'
    | read =>
      rw [Reading.apply]
      split
      · exact prefix_refl _
      · exact prefix_refl _

end Reading

/-- **Streams are logs with a seal, and a reader follows them.**  Whatever operations but imports
have led to a store, each of its streams has at most one seal and nothing after it; and of a reader
of one of them, at every read of every history: what it has got after the read is a prefix of the
values that the stream has in the end, the read says "closed" only if it is all of them, and it says
so whenever the seal has been written. -/
theorem stream_log_integrity {X : TextCodec} {g : Inner}
    (hreach : Reaches X (fun op _ => op.Native) {} g) : IntactStreams g ∧
      ∀ id key, ∀ before after : List Reading.Event, let r := Reading.run id key ⟨g, []⟩ before
        let final := values (streamOf (r.run id key (.read :: after)).store id key)
        ∃ batch closed, r.batch id key = .ok (batch, closed) ∧
          (r.apply id key .read).received = r.received ++ batch ∧
          r.received ++ batch <+: final ∧ (closed = true → r.received ++ batch = final) ∧
          (closed = true ↔ none ∈ streamOf r.store id key) := by
  have hg : IntactStreams g :=
    hreach.invariant (fun _ _ _ _ hop hinv => intact_run hop hinv) intact_empty
  refine ⟨hg, fun id key before after => ?_⟩
  intro r final
  have hr : r.Follows id key := Reading.Follows.run ⟨hg, nil_prefix⟩ before
  have hlast := hr.run (.read :: after)
  have hread := hr.read
  have hgrown : streamOf r.store id key <+: streamOf (r.run id key (.read :: after)).store id key :=
    Reading.prefix_run id key (.read :: after)
  have hvalues := (hr.intact id key).visible_eq
  have hfinal := (hlast.intact id key).visible_eq
  refine ⟨_, _, hr.batch_eq, ?_, ?_, fun hclosed => ?_, isSealed_iff⟩
  · rw [hread]
    exact prefix_append_drop hr.got
  · rw [← prefix_append_drop hr.got, ← hvalues]
    exact (visible_mono hgrown).trans (hfinal ▸ prefix_refl _)
  · rw [← prefix_append_drop hr.got, ← hvalues]
    exact (visible_eq_of_sealed hgrown hclosed).symm.trans hfinal

/-- A stream with one value. -/
def oneValue : Inner := (writeStream "w" "progress" (some (.number (.int 7))) {}).2

/-- The stream is read and closed; the next read brings nothing more and says so. -/
theorem stream_log_integrity_oneValue : IntactStreams oneValue ∧
    let r := Reading.run "w" "progress" ⟨oneValue, []⟩ [.read, .write "w" "progress" none]
    r.received = [.number (.int 7)] ∧ r.batch "w" "progress" = .ok ([], true) := by
  have hwrite : Memory.Step noText (fun op _ => op.Native) {} oneValue :=
    ⟨.call (.writeStream "w" "progress" (some (.number (.int 7))) 0), ⟨0⟩, "", trivial, rfl⟩
  obtain ⟨hintact, hreads⟩ := stream_log_integrity (.single hwrite)
  obtain ⟨batch, closed, hbatch, -, hprefix, -, hclosed⟩ :=
    hreads "w" "progress" [.read, .write "w" "progress" none] []
  obtain rfl : closed = true := hclosed.mpr (isSealed_iff.mp rfl)
  have hnone : batch = [] := by
    have hlength := hprefix.length_le
    rw [length_append] at hlength
    exact length_eq_zero_iff.mp (Nat.le_zero.mp (Nat.le_of_add_le_add_left hlength))
  exact ⟨hintact, rfl, hnone ▸ hbatch⟩

end Durare.Memory
