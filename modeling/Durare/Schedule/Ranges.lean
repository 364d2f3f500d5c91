import Durare.Schedule.Ticks
import Mathlib.Data.List.Sort

/-!
# Schedule/Ranges — the instants of a cron schedule between two times

The loop of `cron_ticks_between` asks for the next instant until it reaches the end of the range.
What it enumerates is settled by two facts — the list is strictly increasing, and it has exactly the
instants inside — so a range can be cut anywhere: the instants of the two parts, and the cut itself
if it is one of them, are those of the whole.
-/

namespace Durare

open List

/-- What is found is the least instant with `tick` after `x`, if there is one. -/
def IsNext (tick : DateTime → Prop) (x : DateTime) : Option DateTime → Prop
  | some t => tick t ∧ x < t ∧ ∀ u, tick u → x < u → t ≤ u
  | none => ∀ u, tick u → ¬x < u

namespace CronLib

variable (lib : CronLib) (cron : lib.Cron)

/-- The library steps through the ticks of the spec in the zone. -/
def Steps (zone : lib.Tz) (tick : DateTime → Prop) : Prop :=
  ∀ x, IsNext tick x ((lib.nextAfter cron ⟨x, zone⟩).map (·.instant))

/-- The zone a schedule is read in, if its name is one. -/
def zoneOf : Option String → Option lib.Tz
  | some name => lib.parseTz name
  | none => some lib.utc

variable {lib cron}

theorem Steps.isNext {zone : lib.Tz} {tz : Option String} {tick : DateTime → Prop}
    (h : lib.Steps cron zone tick) (hzone : lib.zoneOf tz = some zone) (x : DateTime) :
    IsNext tick x (lib.nextCronInstant cron tz x) := by
  have hnext := h x
  cases tz with
  | none =>
    cases hzone
    exact hnext
  | some name =>
    have hname : lib.parseTz name = some zone := hzone
    dsimp only [nextCronInstant]
    rw [hname]
    exact hnext

end CronLib

/-- The loop ends, with what it has pushed since it was at `cursor`. -/
inductive Enumerates (lib : CronLib) (cron : lib.Cron) (tz : Option String) (till : DateTime) :
    DateTime → List DateTime → Prop where
  | leave {cursor : DateTime}
      (h : ∀ next, lib.nextCronInstant cron tz cursor = some next → till ≤ next) :
      Enumerates lib cron tz till cursor []
  | push {cursor next : DateTime} {out : List DateTime}
      (h : lib.nextCronInstant cron tz cursor = some next) (hnext : ¬till ≤ next)
      (rest : Enumerates lib cron tz till next out) :
      Enumerates lib cron tz till cursor (next :: out)

section

variable {lib : CronLib} {cron : lib.Cron} {tz : Option String} {zone : lib.Tz}
  {tick : DateTime → Prop} {till cursor : DateTime} {out : List DateTime}

/-- **The loop ends within the rounds it is given**: each one moves the cursor on. -/
theorem enumerates_cronTicks (hlib : ∀ x, IsNext tick x (lib.nextCronInstant cron tz x))
    {fuel : Nat} (hfuel : (till.nanos - cursor.nanos).toNat ≤ fuel) :
    Enumerates lib cron tz till cursor (cronTicks lib cron tz till fuel cursor) := by
  induction fuel generalizing cursor with
  | zero =>
    refine .leave fun next hnext => ?_
    have hlater := hlib cursor
    rw [hnext] at hlater
    have hlt : cursor.nanos < next.nanos := hlater.2.1
    show till.nanos ≤ next.nanos
    omega
  | succ fuel ih =>
    have hlater := hlib cursor
    unfold cronTicks
    cases hnext : lib.nextCronInstant cron tz cursor with
    | none => exact .leave fun _ h => nomatch hnext.symm.trans h
    | some next =>
      rw [hnext] at hlater
      have hlt : cursor.nanos < next.nanos := hlater.2.1
      dsimp only
      split
      · next hle => exact .leave fun _ h => Option.some.inj (hnext.symm.trans h) ▸ hle
      · next hin => exact .push hnext hin (ih (by omega))

/-- **Exactly the instants inside are enumerated.** -/
theorem Enumerates.mem_iff (h : Enumerates lib cron tz till cursor out)
    (hlib : ∀ x, IsNext tick x (lib.nextCronInstant cron tz x)) (t : DateTime) :
    t ∈ out ↔ tick t ∧ cursor < t ∧ t < till := by
  induction h with
  | @leave cursor hleave =>
    refine ⟨fun h => (nomatch h), fun ⟨htick, hafter, hbefore⟩ => ?_⟩
    have hlater := hlib cursor
    cases hnext : lib.nextCronInstant cron tz cursor with
    | none =>
      rw [hnext] at hlater
      exact absurd hafter (hlater t htick)
    | some next =>
      rw [hnext] at hlater
      have hle : next.nanos ≤ t.nanos := hlater.2.2 t htick hafter
      have hend : till.nanos ≤ next.nanos := hleave next hnext
      have hlt : t.nanos < till.nanos := hbefore
      omega
  | @push cursor next out hnext hin _ ih =>
    have hlater := hlib cursor
    rw [hnext] at hlater
    obtain ⟨htick, hlt, hleast⟩ := hlater
    have hin : next.nanos < till.nanos := Int.not_le.mp hin
    rw [mem_cons, ih]
    constructor
    · rintro (rfl | ⟨ht, hafter, hbefore⟩)
      · exact ⟨htick, hlt, hin⟩
      · exact ⟨ht, Int.lt_trans hlt hafter, hbefore⟩
    · rintro ⟨ht, hafter, hbefore⟩
      have hle : next.nanos ≤ t.nanos := hleast t ht hafter
      rcases Int.lt_or_eq_of_le hle with hlater | heq
      · exact .inr ⟨ht, hlater, hbefore⟩
      · exact .inl (congrArg DateTime.mk heq.symm)

theorem Enumerates.pairwise (h : Enumerates lib cron tz till cursor out)
    (hlib : ∀ x, IsNext tick x (lib.nextCronInstant cron tz x)) : out.Pairwise (· < ·) := by
  induction h with
  | leave => exact .nil
  | push _ _ rest ih => exact .cons (fun t ht => ((rest.mem_iff hlib t).mp ht).2.1) ih

/-- A strictly increasing list of instants is determined by its members. -/
theorem eq_of_increasing {a b : List DateTime} (ha : a.Pairwise (· < ·)) (hb : b.Pairwise (· < ·))
    (h : ∀ t, t ∈ a ↔ t ∈ b) : a = b := by
  have hne {l : List DateTime} (hl : l.Pairwise (· < ·)) : l.Nodup := by
    refine nodup_iff_pairwise_ne.mpr (hl.imp fun hxy => ?_)
    rintro rfl
    exact Int.lt_irrefl _ hxy
  have hperm := (perm_ext_iff_of_nodup (hne ha) (hne hb)).mpr h
  exact hperm.eq_of_pairwise (fun _ _ _ _ hxy hyx => absurd hxy (Int.not_lt.mpr (Int.le_of_lt hyx)))
    ha hb

/-- **A cron range is enumerated exactly**, and the enumeration splits at any instant. -/
theorem cron_range_exact [DecidablePred tick] (hzone : lib.zoneOf tz = some zone)
    (hlib : lib.Steps cron zone tick) {start mid till : DateTime} (hstart : start ≤ mid)
    (hend : mid ≤ till) :
    let ticks := cronTicksBetween lib cron tz
    Enumerates lib cron tz till start (ticks start till) ∧
      (ticks start till).Pairwise (· < ·) ∧
      (∀ t, t ∈ ticks start till ↔ tick t ∧ start < t ∧ t < till) ∧
      ticks start till = ticks start mid ++
        (if tick mid ∧ start < mid ∧ mid < till then [mid] else []) ++ ticks mid till := by
  have hlib := hlib.isNext hzone
  have hranges (a b : DateTime) :
      Enumerates lib cron tz b a (cronTicksBetween lib cron tz a b) :=
    enumerates_cronTicks hlib le_rfl
  have hmem {a b t : DateTime} : t ∈ cronTicksBetween lib cron tz a b ↔ tick t ∧ a < t ∧ t < b :=
    (hranges a b).mem_iff hlib t
  have hpair (a b : DateTime) := (hranges a b).pairwise hlib
  refine ⟨hranges start till, hpair start till, fun _ => hmem, ?_⟩
  have hcut {t : DateTime} : t ∈ (if tick mid ∧ start < mid ∧ mid < till then [mid] else []) ↔
      t = mid ∧ tick mid ∧ start < mid ∧ mid < till := by
    split <;> simp_all
  refine eq_of_increasing (hpair start till) ?_ fun t => ?_
  · simp only [pairwise_append, mem_append, hcut, hmem]
    refine ⟨⟨hpair start mid, by split <;> simp, ?_⟩, hpair mid till, ?_⟩
    · rintro a ⟨-, -, ha⟩ b ⟨rfl, -⟩
      exact ha
    · rintro a (⟨-, -, ha⟩ | ⟨rfl, -⟩) b ⟨-, hb, -⟩
      · exact Int.lt_trans ha hb
      · exact hb
  · simp only [mem_append, hmem, hcut]
    constructor
    · rintro ⟨ht, hafter, hbefore⟩
      rcases lt_trichotomy t.nanos mid.nanos with hlt | heq | hgt
      · exact .inl (.inl ⟨ht, hafter, hlt⟩)
      · obtain rfl : t = mid := congrArg DateTime.mk heq
        exact .inl (.inr ⟨rfl, ht, hafter, hbefore⟩)
      · exact .inr ⟨ht, hgt, hbefore⟩
    · rintro ((⟨ht, hafter, hbefore⟩ | ⟨rfl, h⟩) | ⟨ht, hafter, hbefore⟩)
      · exact ⟨ht, hafter, Int.lt_of_lt_of_le hbefore hend⟩
      · exact h
      · exact ⟨ht, Int.lt_of_le_of_lt hstart hafter, hbefore⟩

end

/-- The next three in the morning, by a clock that is ahead of UTC. -/
def nextThree (ahead nanos : Int) : Int :=
  ((nanos + ahead - 10800000000000) / 86400000000000 + 1) * 86400000000000 + 10800000000000 - ahead

/-- Three o'clock every day, where a zone is how far it is ahead. -/
def everyNight : CronLib where
  Cron := Unit
  parse _ := .ok ()
  Tz := Int
  utc := 0
  parseTz name := if name = "Asia/Tokyo" then some 32400000000000 else none
  nextAfter _ t := some { t with instant := ⟨nextThree t.zone t.instant.nanos⟩ }

/-- It is six in the evening, UTC. -/
def AtSix (t : DateTime) : Prop := t.nanos % 86400000000000 = 64800000000000

instance : DecidablePred AtSix := fun t =>
  inferInstanceAs (Decidable (t.nanos % 86400000000000 = 64800000000000))

theorem steps_everyNight : everyNight.Steps () (32400000000000 : Int) AtSix := by
  intro x
  have hnext : IsNext AtSix x (some ⟨nextThree 32400000000000 x.nanos⟩) := by
    refine ⟨?_, ?_, fun u (hu : u.nanos % 86400000000000 = 64800000000000) hlt => ?_⟩
    · show nextThree 32400000000000 x.nanos % 86400000000000 = 64800000000000
      unfold nextThree
      omega
    · show x.nanos < nextThree 32400000000000 x.nanos
      unfold nextThree
      omega
    · have hlt : x.nanos < u.nanos := hlt
      show nextThree 32400000000000 x.nanos ≤ u.nanos
      unfold nextThree
      omega
  exact hnext

/-- Three in the morning in Tokyo is six in the evening, UTC. -/
theorem cron_range_exact_tokyo : (⟨64800000000000⟩ : DateTime) ∈
    cronTicksBetween everyNight () (some "Asia/Tokyo") ⟨0⟩ ⟨86400000000000⟩ :=
  ((cron_range_exact rfl steps_everyNight (show (⟨0⟩ : DateTime) ≤ ⟨1000000000⟩ by decide)
    (show _ ≤ (⟨86400000000000⟩ : DateTime) by decide)).2.2.1 _).mpr ⟨rfl, by decide, by decide⟩

end Durare
