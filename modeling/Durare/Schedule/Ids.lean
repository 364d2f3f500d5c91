import Durare.Machinery.Calendar
import Durare.Store.Rows

/-!
# Schedule/Ids — the ids of scheduled runs

A tick of a schedule is stored under `sched-{name}-{instant}`, the instant in RFC 3339 as `chrono`
writes it, and a run triggered by hand under `sched-{name}-trigger-{now}`.  Names may contain dashes
and whole instants; what tells two ids apart is that the instant of a tick has a fixed width
(`tickId_injective`) and that the two kinds end in different zones (`tickId_ne_triggerId`).
-/

namespace Durare

open List Calendar

/-! ## RFC 3339 -/

namespace DateTime

/-- The whole seconds since the epoch. -/
def seconds (t : DateTime) : Int := t.nanos / 1000000000

/-- The day, in UTC. -/
def date (t : DateTime) : Date := .ofDays (t.seconds / 86400)

def secondOfDay (t : DateTime) : Nat := (t.seconds % 86400).toNat

/-- The nanoseconds within the second. -/
def subsec (t : DateTime) : Nat := (t.nanos % 1000000000).toNat

/-- Four digits; with a sign, and as many as it takes, for a year that has more or is negative. -/
def yearText (year : Int) : List Char :=
  if 0 ≤ year ∧ year ≤ 9999 then fixed 4 year.toNat
  else (if year < 0 then '-' else '+') :: (Nat.toDigits 10 year.natAbs).leftpad 4 '0'

/-- `2026-11-16T09:30:00`. -/
def text (t : DateTime) : List Char :=
  yearText t.date.year ++ '-' :: fixed 2 t.date.month.toNat ++ '-' :: fixed 2 t.date.day.toNat ++
    'T' :: fixed 2 (t.secondOfDay / 3600) ++ ':' :: fixed 2 (t.secondOfDay / 60 % 60) ++
    ':' :: fixed 2 (t.secondOfDay % 60)

/-- `SecondsFormat::AutoSi`: no fraction, or one of three, six or nine digits. -/
def autoSi (nanos : Nat) : List Char :=
  if nanos = 0 then []
  else if nanos % 1000000 = 0 then '.' :: fixed 3 (nanos / 1000000)
  else if nanos % 1000 = 0 then '.' :: fixed 6 (nanos / 1000)
  else '.' :: fixed 9 nanos

/-- `to_rfc3339`. -/
def toRfc3339 (t : DateTime) : String :=
  .ofList (t.text ++ autoSi t.subsec ++ ['+', '0', '0', ':', '0', '0'])

/-- `to_rfc3339_opts(SecondsFormat::Nanos, true)`. -/
def toRfc3339Nanos (t : DateTime) : String := .ofList (t.text ++ '.' :: fixed 9 t.subsec ++ ['Z'])

/-- A whole second of a year with four digits. -/
structure Plain (t : DateTime) : Prop where
  whole : t.nanos % 1000000000 = 0
  year : 0 ≤ t.date.year ∧ t.date.year ≤ 9999

variable {t t' : DateTime}

theorem Plain.toList_toRfc3339 (h : t.Plain) :
    t.toRfc3339.toList = t.text ++ ['+', '0', '0', ':', '0', '0'] := by
  have hsubsec : t.subsec = 0 := by simp [subsec, h.whole]
  rw [toRfc3339, String.toList_ofList, hsubsec, autoSi, if_pos rfl, append_nil]

theorem Plain.length_text (h : t.Plain) : t.text.length = 19 := by simp [text, yearText, h.year]

/-- **The text of a plain instant says which one it is.** -/
theorem Plain.text_inj (h : t.Plain) (h' : t'.Plain) (heq : t.text = t'.text) : t = t' := by
  obtain ⟨heq, hsecond⟩ := append_inj' heq (by simp)
  obtain ⟨heq, hminute⟩ := append_inj' heq (by simp)
  obtain ⟨heq, hhour⟩ := append_inj' heq (by simp)
  obtain ⟨heq, hday⟩ := append_inj' heq (by simp)
  obtain ⟨hyear, hmonth⟩ := append_inj' heq (by simp)
  have hdate : t.date = t'.date := by
    rw [yearText, yearText, if_pos h.year, if_pos h'.year] at hyear
    have hy := h.year
    have hy' := h'.year
    have hm : 1 ≤ t.date.month ∧ t.date.month ≤ 12 := Date.month_ofDays _
    have hm' : 1 ≤ t'.date.month ∧ t'.date.month ≤ 12 := Date.month_ofDays _
    have hd : 1 ≤ t.date.day ∧ t.date.day ≤ 31 := Date.day_ofDays _
    have hd' : 1 ≤ t'.date.day ∧ t'.date.day ≤ 31 := Date.day_ofDays _
    have hyears := fixed_inj (by omega) (by omega) hyear
    have hmonths := fixed_inj (by omega) (by omega) (List.cons.inj hmonth).2
    have hdays := fixed_inj (by omega) (by omega) (List.cons.inj hday).2
    ext
    all_goals omega
  have htime : t.secondOfDay = t'.secondOfDay := by
    have hlt : t.secondOfDay < 86400 := by
      unfold secondOfDay
      omega
    have hlt' : t'.secondOfDay < 86400 := by
      unfold secondOfDay
      omega
    have hseconds := fixed_inj (by omega) (by omega) (List.cons.inj hsecond).2
    have hminutes := fixed_inj (by omega) (by omega) (List.cons.inj hminute).2
    have hhours := fixed_inj (by omega) (by omega) (List.cons.inj hhour).2
    omega
  have hdays := Date.ofDays_injective hdate
  have hnanos : t.nanos = t'.nanos := by
    have hwhole := h.whole
    have hwhole' := h'.whole
    simp only [secondOfDay, seconds] at htime hdays
    omega
  exact congrArg DateTime.mk hnanos

end DateTime

/-! ## Ids -/

/-- The id a tick is stored under. -/
def tickId (name : String) (instant : DateTime) : String :=
  "sched-" ++ name ++ "-" ++ instant.toRfc3339

/-- The id of a run triggered by hand. -/
def triggerId (name : String) (now : DateTime) : String :=
  "sched-" ++ name ++ "-trigger-" ++ now.toRfc3339Nanos

/-- **A tick id names its schedule and its instant.** -/
theorem tickId_injective {name name' : String} {t t' : DateTime} (h : t.Plain) (h' : t'.Plain)
    (heq : tickId name t = tickId name' t') : name = name' ∧ t = t' := by
  have hlist := congrArg String.toList heq
  simp only [tickId, String.toList_append, h.toList_toRfc3339, h'.toList_toRfc3339,
    ← append_assoc] at hlist
  -- The zones go, and then the instants, which are equally long.
  have hinstants := append_cancel_right hlist
  obtain ⟨hnames, htexts⟩ := append_inj' hinstants (by rw [h.length_text, h'.length_text])
  have hname := append_cancel_left (append_cancel_right hnames)
  exact ⟨String.toList_inj.mp hname, h.text_inj h' htexts⟩

/-- **A tick id is no trigger id.** -/
theorem tickId_ne_triggerId (name name' : String) (t now : DateTime) :
    tickId name t ≠ triggerId name' now := by
  intro heq
  have htick : (tickId name t).toList.getLast? = some '0' := by
    simp only [tickId, DateTime.toRfc3339, String.toList_append, String.toList_ofList,
      getLast?_append]
    rfl
  have htrigger : (triggerId name' now).toList.getLast? = some 'Z' := by
    simp only [triggerId, DateTime.toRfc3339Nanos, String.toList_append, String.toList_ofList,
      getLast?_append]
    rfl
  rw [heq, htrigger] at htick
  exact absurd htick (by decide)

end Durare
