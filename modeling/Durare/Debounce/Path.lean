import Durare.Context.InMemory
import Durare.Debounce.Model

/-!
# Debounce/Path — the rounds of a collector, read off its log

Whether a collector runs for the first time or again, the rows of its log decide what it does: which
messages it has received, and when it leaves its loop.  Rows are never rewritten, so a round that
has been played stays played.

* `DebouncerInput.next` — one round; `Leads` — the rounds played so far; `Halts` — the last one.
* `Halts.received` — the last round has received every message of the others.
-/

namespace Durare.Debounce

open List Option

open Memory

/-! ## Reading a log -/

/-- The rows of one workflow. -/
abbrev Log := Int → Option StepRow

/-- What the operation `name` returns when it finds its row at `n`. -/
def reading (T : Type) [Serde T] (name : String) (log : Log) (n : Int) : Option T :=
  (log n).bind fun row =>
    if row.name = name then (outcomeValue T (stepRowOutcome row)).toOption else none

/-- Rows stay. -/
def Extends (log log' : Log) : Prop := ∀ n row, log n = some row → log' n = some row

theorem Extends.refl (log : Log) : Extends log log := fun _ _ h => h

theorem Extends.trans {a b c : Log} (h : Extends a b) (h' : Extends b c) : Extends a c :=
  fun n row hrow => h' n row (h n row hrow)

section

variable {T : Type} [Serde T] {name : String} {log log' : Log} {n : Int} {v : T}

theorem reading_mono (h : Extends log log') (hv : reading T name log n = some v) :
    reading T name log' n = some v := by
  obtain ⟨row, hrow, hread⟩ := bind_eq_some_iff.mp hv
  exact bind_eq_some_iff.mpr ⟨row, h n row hrow, hread⟩

theorem reading_eq_some {row : StepRow} (hrow : log n = some row) (hname : row.name = name)
    (hv : outcomeValue T (stepRowOutcome row) = .ok v) : reading T name log n = some v := by
  rw [reading, hrow, bind_some, if_pos hname, hv]
  rfl

end

/-! ## Rounds -/

/-- A collector between two rounds: its sequence number, its start time, and the messages it has
received, the latest first. -/
structure Round where
  seq : Int
  targetMs : Int
  received : List DebounceMessage

/-- The input the target would be started with. -/
def Round.current (r : Round) (input : DebouncerInput) : Value :=
  (r.received.head?.map DebounceMessage.input).getD input.initialInput

/-- The collector before its first round. -/
def DebouncerInput.first (input : DebouncerInput) (start : Int) : Round :=
  ⟨1, input.cap start (i64 (start + input.delayMs)), []⟩

/-- After a message. -/
def DebouncerInput.took (input : DebouncerInput) (start now : Int) (msg : DebounceMessage)
    (r : Round) : Round :=
  ⟨if msg.id = "" then r.seq + 3 else r.seq + 4, input.cap start (i64 (now + msg.delayMs)),
    msg :: r.received⟩

/-- One round, if its rows are there: the collector leaves its loop, or goes on with a message. -/
def DebouncerInput.next (input : DebouncerInput) (log : Log) (start : Int) (r : Round) :
    Option (Option Round) :=
  (reading Int LOOP_TIME log r.seq).bind fun now =>
    if i64 (r.targetMs - now) ≤ 0 then some none
    else
      (reading (Option DebounceMessage) "DBOS.recv" log (r.seq + 1)).map fun got =>
        got.map fun msg => input.took start now msg r

/-- The rounds that the rows allow. -/
def Plays (input : DebouncerInput) (log : Log) (start : Int) : Round → Round → Prop :=
  Relation.ReflTransGen fun r r' => input.next log start r = some (some r')

/-- The collector has come to the round `r`. -/
structure Leads (input : DebouncerInput) (log : Log) (start : Int) (r : Round) : Prop where
  started : reading Int START_TIME log 0 = some start
  plays : Plays input log start (input.first start) r

/-- The collector has left its loop at the round `r`. -/
structure Halts (input : DebouncerInput) (log : Log) (start : Int) (r : Round) : Prop where
  leads : Leads input log start r
  last : input.next log start r = some none

section

variable {input : DebouncerInput} {log log' : Log} {start start' : Int} {r r' : Round}

theorem next_mono (h : Extends log log') {x : Option Round}
    (hnext : input.next log start r = some x) : input.next log' start r = some x := by
  obtain ⟨now, hnow, hrest⟩ := bind_eq_some_iff.mp hnext
  refine bind_eq_some_iff.mpr ⟨now, reading_mono h hnow, ?_⟩
  by_cases hdone : i64 (r.targetMs - now) ≤ 0
  · rw [if_pos hdone] at hrest ⊢
    exact hrest
  · rw [if_neg hdone] at hrest ⊢
    obtain ⟨got, hgot, hx⟩ := map_eq_some_iff.mp hrest
    exact map_eq_some_iff.mpr ⟨got, reading_mono h hgot, hx⟩

theorem Leads.mono (h : Extends log log') (hr : Leads input log start r) :
    Leads input log' start r :=
  ⟨reading_mono h hr.started,
    Relation.ReflTransGen.mono (fun _ _ hnext => next_mono h hnext) _ _ hr.plays⟩

theorem Halts.mono (h : Extends log log') (hr : Halts input log start r) :
    Halts input log' start r :=
  ⟨hr.leads.mono h, next_mono h hr.last⟩

theorem Leads.first (h : reading Int START_TIME log 0 = some start) :
    Leads input log start (input.first start) := ⟨h, .refl⟩

theorem Leads.next (h : Leads input log start r) (hnext : input.next log start r = some (some r')) :
    Leads input log start r' := ⟨h.started, h.plays.tail hnext⟩

/-- A round that goes on has received one message more. -/
theorem received_next (h : input.next log start r = some (some r')) :
    ∃ now msg, reading (Option DebounceMessage) "DBOS.recv" log (r.seq + 1) = some (some msg) ∧
      r' = input.took start now msg r := by
  obtain ⟨now, -, hrest⟩ := bind_eq_some_iff.mp h
  by_cases hdone : i64 (r.targetMs - now) ≤ 0
  · rw [if_pos hdone] at hrest
    cases hrest
  · rw [if_neg hdone] at hrest
    obtain ⟨got, hgot, hx⟩ := map_eq_some_iff.mp hrest
    obtain ⟨msg, rfl, rfl⟩ := map_eq_some_iff.mp hx
    exact ⟨now, msg, hgot, rfl⟩

theorem Plays.received (h : Plays input log start r r') : r.received <:+ r'.received := by
  induction h with
  | refl => exact suffix_refl _
  | tail _ hnext ih =>
    obtain ⟨now, msg, -, rfl⟩ := received_next hnext
    exact ih.trans (suffix_cons _ _)

theorem Leads.forall_received {P : DebounceMessage → Prop} (h : Leads input log start r)
    (hP : ∀ n msg, reading (Option DebounceMessage) "DBOS.recv" log n = some (some msg) → P msg) :
    ∀ msg ∈ r.received, P msg := by
  obtain ⟨-, hplays⟩ := h
  induction hplays with
  | refl => exact nofun
  | tail _ hnext ih =>
    obtain ⟨now, msg, hread, rfl⟩ := received_next hnext
    exact forall_mem_cons.mpr ⟨hP _ msg hread, ih⟩

/-- **The last round has received the messages of every round.** -/
theorem Halts.received (h : Halts input log start r) (h' : Leads input log start' r') :
    r'.received <:+ r.received := by
  obtain rfl : start = start' := Option.some.inj (h.leads.started.symm.trans h'.started)
  have hunique : Relator.RightUnique fun r r' => input.next log start r = some (some r') :=
    fun _ _ _ ha hb => Option.some.inj (Option.some.inj (ha.symm.trans hb))
  rcases Relation.ReflTransGen.total_of_right_unique hunique h.leads.plays h'.plays with hon | hback
  · rcases Relation.ReflTransGen.cases_head hon with rfl | ⟨_, hnext, -⟩
    · exact suffix_refl _
    · cases h.last.symm.trans hnext
  · exact Plays.received hback

/-- A message that was taken is the current one, or a later one is. -/
theorem Round.current_eq {mine : DebounceMessage} {earlier : List DebounceMessage}
    (h : mine :: earlier <:+ r.received) : ∃ later, r.received = later ++ mine :: earlier ∧
      r.current input = (later.head?.map DebounceMessage.input).getD mine.input := by
  obtain ⟨later, heq⟩ := h
  refine ⟨later, heq.symm, ?_⟩
  rw [Round.current, ← heq]
  cases later with
  | nil => rfl
  | cons msg rest => rfl

end

end Durare.Debounce
