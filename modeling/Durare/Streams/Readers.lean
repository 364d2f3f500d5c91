import Durare.Context.Verbs
import Durare.Machinery.SealedLog
import Mathlib.Data.List.Forall2
import Mathlib.Data.List.Infix

/-!
# Streams/Readers — the blocking and the incremental reader of a stream

`drainStreamFrom` reads a stream until it is closed or its producer is seen inactive, and returns
all its values; `streamValues` yields them one by one.  Both ask the backend two questions, the
entries behind an offset and the status of the producer, and neither gets an answer that lasts: the
stream and the status go on changing between two questions.

A `History` is where the answers come from.  `wp_drainStreamFrom` and `wp_streamValues` say what
each reader has got when it ends: the values that were visible at a moment after it saw the stream
closed or the producer inactive.  `exists_drain` and `exists_pulls` say that it ends, unless it has
to wait for the producer for ever.
-/

namespace Durare

open List

open SealedLog

/-! ## The two questions -/

/-- A call of the seam between a reader and the backend, and the pause between two rounds. -/
inductive ReadCall where
  | streamEntries (workflowId key : String) (fromOffset : Int)
  | producerStatus (workflowId : String)
  | sleep (d : Duration)

/-- How a call is answered. -/
@[reducible] def ReadAnswer : ReadCall → Type
  | .streamEntries _ _ _ => Except Error (List Value × Bool)
  | .producerStatus _ => Except Error (Option Status)
  | .sleep _ => Unit

/-- How long a reader pauses. -/
def STREAM_POLL_INTERVAL : Duration := ⟨25000000⟩

/-- `s != STATUS_PENDING && s != STATUS_ENQUEUED`. -/
def Status.inactive (s : Status) : Bool := s ≠ .pending && s ≠ .enqueued

/-- `serde_json::from_value` on each value, with `?`. -/
def decodeAll (T : Type) [Serde T] (values : List Value) : Except Error (List T) :=
  values.mapM fun v => (Serde.fromValue v).mapError .serde

/-- Ask for the entries behind an offset. -/
def streamEntries (workflowId key : String) (fromOffset : Int) :
    Proc ReadCall ReadAnswer (Except Error (List Value × Bool)) :=
  Proc.ask (ReadCall.streamEntries workflowId key fromOffset)

/-- Ask for the status of the producer. -/
def producerStatus (workflowId : String) : Proc ReadCall ReadAnswer
    (Except Error (Option Status)) :=
  Proc.ask (ReadCall.producerStatus workflowId)

/-- Pause before the next round. -/
def pause : Proc ReadCall ReadAnswer Unit := Proc.ask (ReadCall.sleep STREAM_POLL_INTERVAL)

/-! ## The readers -/

/-- The local variables of the drain loop. -/
structure Drain (T : Type) where
  all : List T := []
  offset : Int := 0
  finalRead : Bool := false

section

variable (T : Type) [Serde T] (workflowId key : String)

/-- One round of the drain loop. -/
def drainRound (st : Drain T) :
    Proc ReadCall ReadAnswer (Drain T ⊕ Except Error (List T × Bool)) := do
  match ← streamEntries workflowId key st.offset with
  | .error e => return .inr (.error e)
  | .ok (values, closed) =>
    match decodeAll T values with
    | .error e => return .inr (.error e)
    | .ok decoded =>
      let all := st.all ++ decoded
      let offset := st.offset + values.length
      if closed then return .inr (.ok (all, true))
      else if st.finalRead then return .inr (.ok (all, true))
      else
        match ← producerStatus workflowId with
        | .error e => return .inr (.error e)
        | .ok none => return .inr (.error (.nonExistentWorkflow workflowId))
        | .ok (some s) =>
          if s.inactive then return .inl ⟨all, offset, true⟩
          else
            let _ ← pause
            return .inl ⟨all, offset, false⟩

def drainStreamFrom : Proc ReadCall ReadAnswer (Except Error (List T × Bool)) :=
  .iter (drainRound T workflowId key) {} .ret

/-- The state that `stream_values` drives across its unfold steps. -/
structure StreamState where
  offset : Int := 0
  buffer : List Value := []
  finalRead : Bool := false
  done : Bool := false

/-- One round of the loop inside an unfold step. -/
def streamRound (st : StreamState) :
    Proc ReadCall ReadAnswer (StreamState ⊕ Option (Except Error T × StreamState)) :=
  match st.buffer with
  -- Emit anything already read before touching the backend again.
  | v :: buffer => match Serde.fromValue v with
    | .ok t => return .inr (some (.ok t, { st with buffer }))
    | .error e => return .inr (some (.error (.serde e), { st with buffer, done := true }))
  | [] => do
      match ← streamEntries workflowId key st.offset with
      | .error e => return .inr (some (.error e, { st with done := true }))
      | .ok (values, closed) =>
        let st := { st with offset := st.offset + values.length, buffer := values }
        if !values.isEmpty then return .inl st
        else if closed || st.finalRead then return .inr none
        else
          match ← producerStatus workflowId with
          | .error e => return .inr (some (.error e, { st with done := true }))
          | .ok none =>
            return .inr (some (.error (.nonExistentWorkflow workflowId), { st with done := true }))
          | .ok (some s) =>
            if s.inactive then return .inl { st with finalRead := true }
            else
              let _ ← pause
              return .inl st

/-- One unfold step: the next item and the state after it, or the end. -/
def streamStep (st : StreamState) :
    Proc ReadCall ReadAnswer (Option (Except Error T × StreamState)) :=
  if st.done then .ret none else .iter (streamRound T workflowId key) st .ret

/-- Somebody who has got some items pulls another one. -/
def pullRound (x : List (Except Error T) × StreamState) : Proc ReadCall ReadAnswer
    ((List (Except Error T) × StreamState) ⊕ List (Except Error T)) := do
  match ← streamStep T workflowId key x.2 with
  | none => return .inr x.1
  | some (item, st) => return .inl (x.1 ++ [item], st)

/-- Somebody pulls items until the stream of `stream_values` ends. -/
def streamValues : Proc ReadCall ReadAnswer (List (Except Error T)) :=
  .iter (pullRound T workflowId key) ([], {}) .ret

end

/-! ## Decoding -/

/-- The items stand for the values. -/
def Decodes {T : Type} [Serde T] (values : List Value) (items : List T) : Prop :=
  List.Forall₂ (fun v t => Serde.fromValue v = .ok t) values items

/-- Every value decodes. -/
def Decodable (T : Type) [Serde T] (values : List Value) : Prop :=
  ∀ v ∈ values, ∃ t : T, Serde.fromValue v = .ok t

variable {got : List Value}

section

variable {T : Type} [Serde T] {values values' : List Value} {items items' : List T}

theorem Decodes.decodeAll_eq (h : Decodes values items) : decodeAll T values = .ok items := by
  induction h with
  | nil => rfl
  | cons ht _ ih =>
    rw [decodeAll] at ih ⊢
    rw [mapM_cons, ht, ih]
    rfl

theorem Decodes.unique (h : Decodes values items) (h' : Decodes values items') : items = items' :=
  Except.ok.inj (h.decodeAll_eq.symm.trans h'.decodeAll_eq)

theorem Decodes.append (h : Decodes values items) (h' : Decodes values' items') :
    Decodes (values ++ values') (items ++ items') := rel_append h h'

/-- **What decodes one by one is decoded.** -/
theorem Decodable.exists (h : Decodable T values) : ∃ items : List T, Decodes values items := by
  induction values with
  | nil => exact ⟨[], .nil⟩
  | cons v values ih =>
    obtain ⟨t, ht⟩ := h v mem_cons_self
    obtain ⟨items, hitems⟩ := ih fun v hv => h v (mem_cons_of_mem _ hv)
    exact ⟨t :: items, .cons ht hitems⟩

/-- If the values decode, so do those that were missing. -/
theorem Decodable.rest (h : Decodable T values) {all : List T} (hgot : got <+: values)
    (hall : Decodes got all) :
    ∃ more, decodeAll T (values.drop got.length) = .ok more ∧ Decodes values (all ++ more) := by
  have hrest : Decodable T (values.drop got.length) := fun v hv => h v (mem_of_mem_drop hv)
  obtain ⟨more, hmore⟩ := hrest.exists
  have hboth := hall.append hmore
  rw [← prefix_append_drop hgot] at hboth
  exact ⟨more, hmore.decodeAll_eq, hboth⟩

theorem Decodes.decodable (h : Decodes values items) : Decodable T values := by
  induction h with
  | nil => exact nofun
  | cons ht _ ih =>
    exact forall_mem_cons.mpr ⟨⟨_, ht⟩, ih⟩

end

/-! ## What a reader finds -/

/-- What a backend shows of a stream and its producer, moment by moment. -/
structure History where
  entries : Nat → List (Option Value)
  status : Nat → Option Status

/-- A status that a reader takes for active. -/
def Live (s : Option Status) : Prop := ∃ a, s = some a ∧ a.inactive = false

namespace History

section

variable (v : History)

/-- How the `n`th question is answered, if it is asked at the moment `n`. -/
def answer (n : Nat) : (c : ReadCall) → ReadAnswer c
  | .streamEntries _ _ offset => .ok (upToSeal ((v.entries n).drop offset.toNat))
  | .producerStatus _ => .ok (v.status n)
  | .sleep _ => ()

/-- The reader may return as `Q` says, having asked `n` questions before. -/
def Ends {α : Type} (reader : Proc ReadCall ReadAnswer α) (n : Nat) (Q : α → Nat → Prop) : Prop :=
  Proc.May (Proc.scripted v.answer).handle Eq reader n fun _ => Q

/-- The stream only grows, and its values decode. -/
structure Watched (T : Type) [Serde T] : Prop where
  grows : ∀ {n m}, n ≤ m → v.entries n <+: v.entries m
  decodes : ∀ n, Decodable T (visible (v.entries n))

/-- A reader that looks at this moment may stop: the stream is closed, or its producer is there and
is not active. -/
def Stops (n : Nat) : Prop :=
  isSealed (v.entries n) = true ∨ ∃ s, v.status n = some s ∧ s.inactive = true

/-- **What a reader that ends has got**: the values visible at a moment after it was allowed to
stop. -/
def Complete {T : Type} [Serde T] (items : List T) : Prop :=
  ∃ n m, v.Stops n ∧ n ≤ m ∧ Decodes (visible (v.entries m)) items

/-- The producer was looked for and was not there. -/
def Missed : Prop := ∃ n, v.status n = none

/-- From the `n`th question on nobody waits for the producer. -/
def Over (n : Nat) : Prop :=
  ∀ k ≥ n, isSealed (v.entries k) = true ∨ ¬Live (v.status (k + 1))

/-- What has been read up to an offset: nothing, or all that a question before showed. -/
def ReadTo (offset : Int) (n : Nat) : Prop :=
  offset = 0 ∨ ∃ k < n, offset = (visible (v.entries k)).length

/-- A reader has come upon nothing new. -/
def Stalled : Prop := ∃ n, v.ReadTo (visible (v.entries n)).length n

end

variable {v : History} {T : Type} [Serde T] {id key : String} {n m : Nat} {vs : List Value}

theorem answer_read (hvs : vs <+: visible (v.entries n)) {offset : Int}
    (hoffset : offset = vs.length) : v.answer n (.streamEntries id key offset) =
      .ok ((visible (v.entries n)).drop vs.length, isSealed (v.entries n)) := by
  rw [answer, hoffset, Int.toNat_natCast]
  exact congrArg Except.ok (upToSeal_drop hvs.length_le)

theorem Over.lt_of_waits {N : Nat} (h : v.Over N) (hopen : isSealed (v.entries n) = false)
    (hlive : Live (v.status (n + 1))) : n < N := by
  by_contra hle
  rcases h n (not_lt.mp hle) with hsealed | hdead
  · cases hopen.symm.trans hsealed
  · exact hdead hlive

/-! ## The drain -/

/-- What a round of the drain comes to that has got `all`, by what it sees of stream and
producer. -/
def drained (id : String) (st : Drain T) (all : List T) (offset : Int) (closed : Bool)
    (status : Option Status) : Drain T ⊕ Except Error (List T × Bool) :=
  if closed || st.finalRead then .inr (.ok (all, true))
  else match status with
    | none => .inr (.error (.nonExistentWorkflow id))
    | some s => .inl ⟨all, offset, s.inactive⟩

/-- What the drain loop keeps. -/
structure Draining (v : History) (st : Drain T) (n : Nat) : Prop where
  got : ∃ vs : List Value, Decodes vs st.all ∧ st.offset = vs.length ∧ vs <+: visible (v.entries n)
  stopped : st.finalRead = true → ∃ k ≤ n, v.Stops k

theorem Draining.init : Draining v ({} : Drain T) n :=
  ⟨⟨[], .nil, rfl, nil_prefix⟩, nofun⟩

/-- **A round of the drain**, which never fails to end. -/
theorem ends_drainRound {st : Drain T} (h : Draining v st n) {all : List T}
    (hall : Decodes (visible (v.entries n)) all) :
    v.Ends (drainRound T id key st) n fun x m => (x.isLeft = true → n + 1 < m) ∧ x =
      drained id st all (visible (v.entries n)).length (isSealed (v.entries n))
        (v.status (n + 1)) := by
  obtain ⟨⟨vs, hvs, hoffset, hprefix⟩, -⟩ := h
  obtain ⟨more, hmore, hboth⟩ := hall.decodable.rest hprefix hvs
  obtain rfl := hall.unique hboth
  refine Proc.May.bind (Proc.May.call ⟨(answer_read hprefix hoffset).symm, rfl⟩ (Proc.May.ret ?_))
  dsimp only
  rw [hmore]
  unfold drained
  cases hsealed : isSealed (v.entries n) with
  | true => exact Proc.May.ret ⟨nofun, rfl⟩
  | false =>
    cases hfinal : st.finalRead with
    | true => exact Proc.May.ret ⟨nofun, rfl⟩
    | false =>
      have hlength : st.offset + ((visible (v.entries n)).drop vs.length).length =
          (visible (v.entries n)).length := by
        rw [hoffset, length_drop, Int.ofNat_sub hprefix.length_le]
        omega
      rw [hlength]
      refine Proc.May.bind (Proc.May.call ⟨rfl, rfl⟩ (Proc.May.ret ?_))
      dsimp only [answer]
      cases v.status (n + 1) with
      | none => exact Proc.May.ret ⟨nofun, rfl⟩
      | some s =>
        dsimp only
        cases hs : s.inactive with
        | true => exact Proc.May.ret ⟨fun _ => by omega, rfl⟩
        | false =>
          refine Proc.May.bind (Proc.May.call ⟨rfl, rfl⟩ (Proc.May.ret (Proc.May.ret ⟨?_, rfl⟩)))
          exact fun _ => by omega

theorem Draining.next (hv : v.Watched T) {all : List T} {s : Status}
    (hall : Decodes (visible (v.entries n)) all) (hs : v.status (n + 1) = some s)
    (hlt : n + 1 < m) :
    Draining v ⟨all, (visible (v.entries n)).length, s.inactive⟩ m :=
  ⟨⟨_, hall, rfl, visible_mono (hv.grows (by omega))⟩,
    fun hinactive => ⟨n + 1, hlt.le, .inr ⟨s, hs, hinactive⟩⟩⟩

/-- **The drain returns a complete stream**, unless it has missed the producer. -/
theorem wp_drainStreamFrom (hv : v.Watched T) :
    Proc.wp (Proc.scripted v.answer) (drainStreamFrom T id key) (fun r _ => match r with
      | .ok (items, closed) => closed = true ∧ v.Complete items
      | .error e => e = .nonExistentWorkflow id ∧ v.Missed) n := by
  refine ⟨Draining v, Draining.init, fun st n h => ?_⟩
  obtain ⟨all, hall⟩ := (hv.decodes n).exists
  refine (ends_drainRound h hall).wp ?_
  rintro _ m ⟨hlt, rfl⟩
  unfold drained at hlt ⊢
  cases hend : isSealed (v.entries n) || st.finalRead with
  | true =>
    rcases Bool.or_eq_true_iff.mp hend with hsealed | hfinal
    · exact ⟨rfl, n, n, .inl hsealed, le_refl n, hall⟩
    · obtain ⟨k, hle, hstops⟩ := h.stopped hfinal
      exact ⟨rfl, k, n, hstops, hle, hall⟩
  | false =>
    cases hs : v.status (n + 1) with
    | none => exact ⟨rfl, n + 1, hs⟩
    | some s =>
      rw [hend, hs] at hlt
      exact Draining.next hv hall hs (hlt rfl)

/-- **A drain ends** that does not wait for ever. -/
theorem exists_drain (hv : v.Watched T) {N : Nat} (hover : v.Over N) {st : Drain T}
    (h : Draining v st n) :
    v.Ends (.iter (drainRound T id key) st .ret) n fun _ _ => True := by
  -- every round that goes on has waited, or has seen the producer inactive
  induction hleft : N - n + (if st.finalRead then 0 else 1) using Nat.strong_induction_on
    generalizing st n with
  | _ left ih =>
    obtain ⟨all, hall⟩ := (hv.decodes n).exists
    refine Proc.May.iter ((ends_drainRound h hall).mono ?_)
    rintro _ _ m ⟨hlt, rfl⟩
    unfold drained at hlt ⊢
    cases hend : isSealed (v.entries n) || st.finalRead with
    | true => exact Proc.May.ret trivial
    | false =>
      obtain ⟨hopen, hfinal⟩ := Bool.or_eq_false_iff.mp hend
      cases hs : v.status (n + 1) with
      | none => exact Proc.May.ret trivial
      | some s =>
        rw [hend, hs] at hlt
        have hlater := hlt rfl
        refine ih _ ?_ (Draining.next hv hall hs hlater) rfl
        rw [← hleft, hfinal]
        cases hinactive : s.inactive with
        | true =>
          simp only [if_true, Bool.false_eq_true, if_false]
          omega
        | false =>
          have hwaits : n < N := hover.lt_of_waits hopen ⟨s, hs, hinactive⟩
          simp only [Bool.false_eq_true, if_false]
          omega

/-! ## The incremental reader -/

/-- Between two questions: `vs` have been yielded, and what is buffered comes next. -/
structure Ahead (v : History) (vs : List Value) (st : StreamState) (n : Nat) : Prop where
  offset : st.offset = (vs ++ st.buffer).length
  got : vs ++ st.buffer <+: visible (v.entries n)
  stopped : st.finalRead = true → ∃ k ≤ n, v.Stops k
  read : v.ReadTo st.offset n
  going : st.done = false

theorem Ahead.init : Ahead v [] {} n := ⟨rfl, nil_prefix, nofun, .inl rfl, rfl⟩

/-- What an unfold step comes to: the end of a complete stream, the next value, or that the producer
is missing. -/
def Unfolds (v : History) (id : String) (vs : List Value) :
    Option (Except Error T × StreamState) → Nat → Prop
  | none, _ => ∃ k l, v.Stops k ∧ k ≤ l ∧ vs = visible (v.entries l)
  | some (.ok t, st), m => ∃ x, Serde.fromValue x = .ok t ∧ Ahead v (vs ++ [x]) st m
  | some (.error e, st), _ => e = .nonExistentWorkflow id ∧ st.done = true ∧ v.Missed ∧ v.Stalled

/-- How many rounds a reader makes that does not wait for the producer. -/
def rank (st : StreamState) : Nat :=
  if st.buffer ≠ [] then 0 else if st.finalRead then 1 else 2

theorem rank_le (st : StreamState) : rank st ≤ 2 := by
  unfold rank
  split_ifs <;> omega

/-- A reader that has emptied its buffer reads on: what is visible by then and has not been yielded
is in the buffer. -/
theorem Ahead.read_on (hv : v.Watched T) {st : StreamState} (h : Ahead v vs st n)
    (hempty : st.buffer = []) :
    let batch := (visible (v.entries n)).drop vs.length
    Ahead v vs { st with offset := st.offset + batch.length, buffer := batch } (n + 1) := by
  obtain ⟨hoffset, hgot, hstopped, -, hgoing⟩ := h
  rw [hempty, append_nil] at hoffset hgot
  have hall := prefix_append_drop hgot
  have hlength : st.offset + ((visible (v.entries n)).drop vs.length).length =
      (visible (v.entries n)).length := by
    rw [hoffset, length_drop, Int.ofNat_sub hgot.length_le]
    omega
  refine ⟨?_, ?_, fun hfinal => ?_, .inr ⟨n, n.lt_succ_self, hlength⟩, hgoing⟩
  · rw [← hall]
    exact hlength
  · rw [← hall]
    exact visible_mono (hv.grows n.le_succ)
  · obtain ⟨k, hle, hstops⟩ := hstopped hfinal
    exact ⟨k, hle.trans n.le_succ, hstops⟩

/-- A reader that is ahead stays so; it may have found that it can stop. -/
theorem Ahead.later (hv : v.Watched T) {st : StreamState} (h : Ahead v vs st n) (hle : n ≤ m)
    {final : Bool} (hfinal : final = true → ∃ k ≤ m, v.Stops k) :
    Ahead v vs { st with finalRead := final } m :=
  ⟨h.offset, h.got.trans (visible_mono (hv.grows hle)), hfinal,
    h.read.imp_right fun ⟨k, hk, heq⟩ => ⟨k, hk.trans_le hle, heq⟩, h.going⟩

/-- **A round of an unfold step**: it comes to something, or goes on ahead; and if it does not wait
for the producer, then not for long. -/
theorem ends_streamRound (hv : v.Watched T) {st : StreamState} (h : Ahead v vs st n) :
    v.Ends (streamRound T id key st) n fun x m => match x with
      | .inl st' => Ahead v vs st' m ∧ n < m ∧
          (rank st' < rank st ∨ isSealed (v.entries n) = false ∧ Live (v.status (n + 1)))
      | .inr r => Unfolds v id vs r m := by
  rw [streamRound]
  cases hbuffer : st.buffer with
  | cons x buffer =>
    obtain ⟨hoffset, hgot, hstopped, hread, hgoing⟩ := h
    rw [hbuffer] at hoffset hgot
    obtain ⟨t, ht⟩ := hv.decodes n x (hgot.subset (by simp))
    dsimp only
    rw [ht]
    exact Proc.May.ret ⟨x, ht, by simpa using hoffset, by simpa using hgot, hstopped, hread, hgoing⟩
  | nil =>
    have hnext := h.read_on hv hbuffer
    obtain ⟨hoffset, hgot, hstopped, hread, -⟩ := h
    rw [hbuffer, append_nil] at hoffset hgot
    have hall := prefix_append_drop hgot
    refine Proc.May.bind (Proc.May.call ⟨(answer_read hgot hoffset).symm, rfl⟩ (Proc.May.ret ?_))
    dsimp only at hnext ⊢
    cases hbatch : (visible (v.entries n)).drop vs.length with
    | cons x batch =>
      rw [hbatch] at hnext
      refine Proc.May.ret ⟨hnext, n.lt_succ_self, .inl ?_⟩
      simp only [rank, hbuffer, ne_eq, reduceCtorEq, not_false_eq_true, if_true, not_true,
        if_false]
      split_ifs <;> omega
    | nil =>
      rw [hbatch] at hnext hall
      rw [append_nil] at hall
      cases hend : isSealed (v.entries n) || st.finalRead with
      | true =>
        refine Proc.May.ret ?_
        rcases Bool.or_eq_true_iff.mp hend with hsealed | hfinal
        · exact ⟨n, n, .inl hsealed, le_refl n, hall.symm⟩
        · obtain ⟨k, hle, hstops⟩ := hstopped hfinal
          exact ⟨k, n, hstops, hle, hall.symm⟩
      | false =>
        obtain ⟨hopen, hfinal⟩ := Bool.or_eq_false_iff.mp hend
        refine Proc.May.bind (Proc.May.call ⟨rfl, rfl⟩ (Proc.May.ret ?_))
        dsimp only [answer]
        cases hs : v.status (n + 1) with
        | none =>
          refine Proc.May.ret ⟨rfl, rfl, ⟨n + 1, hs⟩, n, ?_⟩
          rwa [hall, ← hoffset]
        | some s =>
          dsimp only
          cases hinactive : s.inactive with
          | true =>
            refine Proc.May.ret ⟨hnext.later hv (by omega) fun _ => ?_, by omega, .inl ?_⟩
            · exact ⟨n + 1, by omega, .inr ⟨s, hs, hinactive⟩⟩
            · simp [rank, hbuffer, hfinal]
          | false =>
            refine Proc.May.bind (Proc.May.call ⟨rfl, rfl⟩ (Proc.May.ret (Proc.May.ret
              ⟨hnext.later hv (by omega) fun htrue => ?_, by omega, .inr ⟨hopen, s, rfl, ?_⟩⟩)))
            · cases hfinal.symm.trans htrue
            · exact hinactive

theorem wp_streamStep (hv : v.Watched T) {st : StreamState} (h : Ahead v vs st n) :
    Proc.wp (Proc.scripted v.answer) (streamStep T id key st) (Unfolds v id vs) n := by
  rw [streamStep, h.going]
  refine ⟨Ahead v vs, h, fun st n h => (ends_streamRound hv h).wp ?_⟩
  rintro (st' | r) m hx
  · exact hx.1
  · exact hx

theorem ends_streamStep (hv : v.Watched T) {N : Nat} (hover : v.Over N) {st : StreamState}
    (h : Ahead v vs st n) : v.Ends (streamStep T id key st) n (Unfolds v id vs) := by
  rw [streamStep, h.going]
  induction hleft : 3 * (N - n) + rank st using Nat.strong_induction_on generalizing st n with
  | _ left ih =>
    refine Proc.May.iter ((ends_streamRound hv h).mono ?_)
    rintro _ (st' | r) m hx
    · obtain ⟨hahead, hlater, hless | ⟨hopen, hlive⟩⟩ := hx
      · exact ih _ (by omega) hahead rfl
      · have hwaits := hover.lt_of_waits hopen hlive
        have hrank := rank_le st'
        exact ih _ (by omega) hahead rfl
    · exact Proc.May.ret hx

/-- **The incremental reader yields a complete stream**, or has missed the producer after some
values, when there was nothing new. -/
theorem wp_streamValues (hv : v.Watched T) :
    Proc.wp (Proc.scripted v.answer) (streamValues T id key) (fun items _ =>
      (∃ ts : List T, items = ts.map .ok ∧ v.Complete ts) ∨
      (∃ ts : List T, items = ts.map .ok ++ [.error (.nonExistentWorkflow id)]) ∧
        v.Missed ∧ v.Stalled) n := by
  refine ⟨fun x n => (∃ vs, ∃ ts : List T, x.1 = ts.map .ok ∧ Decodes vs ts ∧ Ahead v vs x.2 n) ∨
      x.2.done = true ∧ (∃ ts : List T, x.1 = ts.map .ok ++ [.error (.nonExistentWorkflow id)]) ∧
        v.Missed ∧ v.Stalled, .inl ⟨[], [], rfl, .nil, Ahead.init⟩, ?_⟩
  rintro ⟨items, st⟩ n (⟨vs, ts, rfl, hts, hahead⟩ | ⟨hdone, hmissed⟩)
  · refine Proc.wp_bind (Proc.wp_mono ?_ (wp_streamStep hv hahead))
    rintro (_ | ⟨e | t, st'⟩) m h
    · obtain ⟨k, l, hstops, hle, rfl⟩ := h
      exact .inl ⟨ts, rfl, k, l, hstops, hle, hts⟩
    · obtain ⟨rfl, hdone, hmissed⟩ := h
      exact .inr ⟨hdone, ⟨ts, rfl⟩, hmissed⟩
    · obtain ⟨x, ht, hnext⟩ := h
      exact .inl ⟨vs ++ [x], ts ++ [t], by simp, hts.append (.cons ht .nil), hnext⟩
  · have hstep : streamStep T id key st = .ret none := if_pos hdone
    rw [pullRound, hstep]
    exact .inr hmissed

/-- **Somebody who pulls from a stream of at most `L` values comes to its end**, unless they wait
for ever. -/
theorem exists_pulls (hv : v.Watched T) {N : Nat} (hover : v.Over N) {L : Nat}
    (hbound : ∀ n, (visible (v.entries n)).length ≤ L) {items : List (Except Error T)}
    {st : StreamState} (h : Ahead v vs st n) :
    v.Ends (.iter (pullRound T id key) (items, st) .ret) n fun _ _ => True := by
  induction hleft : L - vs.length using Nat.strong_induction_on generalizing items st vs n with
  | _ left ih =>
    refine Proc.May.iter (Proc.May.bind ((ends_streamStep hv hover h).mono ?_))
    rintro _ (_ | ⟨e | t, st'⟩) m hx
    · exact Proc.May.ret (Proc.May.ret trivial)
    · -- after the error the next pull finds the end
      have hstep : streamStep T id key st' = .ret none := if_pos hx.2.1
      refine Proc.May.ret (Proc.May.iter ?_)
      rw [pullRound, hstep]
      exact Proc.May.ret (Proc.May.ret trivial)
    · obtain ⟨x, -, hnext⟩ := hx
      have hlength := hnext.got.length_le.trans (hbound m)
      rw [length_append, length_append, length_singleton] at hlength
      refine Proc.May.ret (ih _ ?_ hnext rfl)
      rw [length_append, length_singleton]
      omega

end History

end Durare
