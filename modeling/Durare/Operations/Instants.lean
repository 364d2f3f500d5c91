import Durare.Debounce.Model

/-!
# Operations/Instants — when a duration ends

Deadlines and delays are kept as milliseconds since the epoch.  A duration is first counted in
milliseconds as a 128-bit number, cut to an `i64`, and added to the time of the clock; the sum wraps
around.  The wake instant of a sleep is a sum of `chrono` instead, in which a duration that is too
long for the library counts as zero.  Either way a duration can be so long that it ends before it
began.
-/

namespace Durare

open Debounce

/-- The instant `Engine::set_workflow_delay` and `Client::set_workflow_delay` pass on. -/
def delayUntil (now : DateTime) (delay : Duration) : Int :=
  i64 (now.timestampMillis + delay.asMillis)

/-- The milliseconds a duration comes to from a clock reading, at the four places that store them:
the deadline and the delay of `insert_run`, the delay of `Client::enqueue` and of
`set_workflow_delay`. -/
inductive Comes (now : DateTime) (d : Duration) : Int → Prop where
  | deadline {rt : Runtime} {nowMs : Int} {id name : String} {input : Value}
      {opts : WorkflowOptions} {parent : Option String} {auth : AuthContext} {ms : Int}
      (hopts : opts.timeout = some d)
      (h : (newRun rt nowMs now id name input opts parent auth).deadlineMs = some ms) :
      Comes now d ms
  | delay {rt : Runtime} {created : DateTime} {id name : String} {input : Value}
      {opts : WorkflowOptions} {parent : Option String} {auth : AuthContext} {ms : Int}
      (hopts : opts.delay = some d)
      (h : (newRun rt now.timestampMillis created id name input opts parent auth).delayUntilMs =
        some ms) : Comes now d ms
  | client {version id queue name : String} {created : DateTime} {input : Value}
      {opts : WorkflowOptions} {ms : Int} (hopts : opts.delay = some d)
      (h : (clientRow version now.timestampMillis created id queue name input opts).delayUntilMs =
        some ms) : Comes now d ms
  | reset : Comes now d (delayUntil now d)

/-- All four add up the same. -/
theorem Comes.eq {now : DateTime} {d : Duration} {ms : Int} (h : Comes now d ms) :
    ms = delayUntil now d := by
  cases h with
  | @deadline _ _ _ _ _ opts _ _ _ hopts h =>
    have h : (if opts.queue.isNone then (opts.timeout.map Duration.asMillis).map
        fun t => i64 (now.timestampMillis + t) else none) = some ms := h
    rw [hopts] at h
    split at h
    · exact (Option.some.inj h).symm
    · cases h
  | @delay _ _ _ _ _ opts _ _ _ hopts h =>
    have h : opts.delay.map (fun d => i64 (now.timestampMillis + d.asMillis)) = some ms := h
    rw [hopts] at h
    exact (Option.some.inj h).symm
  | @client _ _ _ _ _ _ opts _ hopts h =>
    have h : opts.delay.map (fun d => i64 (now.timestampMillis + d.asMillis)) = some ms := h
    rw [hopts] at h
    exact (Option.some.inj h).symm
  | reset => rfl

/-- The duration `d` does not end before `d'` does, whichever way it is counted; what is stored is
the `i64` of a sum. -/
structure EndsLast (now : DateTime) (d' d : Duration) : Prop where
  stored : ∀ ms' ms, Comes now d' ms' → Comes now d ms → i64 ms' ≤ i64 ms
  wake : now.addStd d' ≤ now.addStd d

/-- The duration fits: its end is a 64-bit number of milliseconds, and `chrono` takes it. -/
def Duration.FitsAfter (now : DateTime) (d : Duration) : Prop :=
  now.timestampMillis + (d.nanos / 1000000 : Nat) < 0x8000000000000000 ∧
    d.nanos ≤ 0x7fffffffffffffff * 1000000

/-- What is stored for a duration, computed at once. -/
theorem i64_delayUntil (now : DateTime) (d : Duration) :
    i64 (delayUntil now d) = i64 (now.timestampMillis + (d.nanos / 1000000 : Nat)) := by
  rw [delayUntil, i64_of_fits (fitsI64_i64 _)]
  exact d.i64_add_asMillis _

/-- **A duration ends after every shorter one exactly if it fits.** -/
theorem longer_ends_last_iff (now : DateTime) (hnow : FitsI64 now.timestampMillis) (d : Duration) :
    (∀ d' : Duration, d'.nanos ≤ d.nanos → EndsLast now d' d) ↔ d.FitsAfter now := by
  obtain ⟨hlow, hhigh⟩ := hnow
  constructor
  · intro h
    have hwake : d.nanos ≤ 0x7fffffffffffffff * 1000000 := by
      by_contra hlong
      have hle : (now.addStd ⟨1⟩).nanos ≤ (now.addStd d).nanos := (h ⟨1⟩ (by simp only; omega)).wake
      rw [DateTime.addStd, DateTime.addStd, if_pos (by simp), if_neg hlong] at hle
      simp only at hle
      omega
    refine ⟨?_, hwake⟩
    by_contra hwrap
    -- The duration that ends in the last millisecond there is.
    let last : Duration := ⟨(0x7fffffffffffffff - now.timestampMillis).toNat * 1000000⟩
    have hle := (h last (by simp only [last]; omega)).stored _ _ .reset .reset
    rw [i64_delayUntil, i64_delayUntil] at hle
    simp only [last, i64] at hle
    omega
  · rintro ⟨hms, hwake⟩ d' hle
    constructor
    · intro ms' ms hms' hms''
      rw [hms'.eq, hms''.eq, i64_delayUntil, i64_delayUntil]
      unfold i64
      omega
    · show (now.addStd d').nanos ≤ (now.addStd d).nanos
      rw [DateTime.addStd, DateTime.addStd, if_pos (by omega), if_pos hwake]
      simp only
      omega

theorem longer_ends_last_iff_second : EndsLast ⟨0⟩ ⟨1⟩ ⟨1000000000⟩ :=
  (longer_ends_last_iff ⟨0⟩ fitsI64_zero ⟨1000000000⟩).mpr ⟨by decide, by decide⟩ ⟨1⟩ (by decide)

/-- A duration of 2 ^ 63 milliseconds. -/
def ages : Duration := ⟨0x8000000000000000 * 1000000⟩

/-- **A longer duration ends earlier**: the delay of a second is over later than that of an age, and
so is a sleep. -/
theorem longer_ends_earlier : (⟨1000000000⟩ : Duration).nanos ≤ ages.nanos ∧
    i64 (delayUntil ⟨0⟩ ages) < i64 (delayUntil ⟨0⟩ ⟨1000000000⟩) ∧
    DateTime.addStd ⟨0⟩ ages < DateTime.addStd ⟨0⟩ ⟨1000000000⟩ := by
  decide

end Durare
