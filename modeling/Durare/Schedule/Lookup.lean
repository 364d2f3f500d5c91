import Durare.Schedule.Model

/-!
# Schedule/Lookup — a schedule looked up by its name, over PostgreSQL

`get_schedule` lists the schedules whose name is `LIKE` the name followed by `%`, and picks the one
with exactly that name.  `%` and `_` in a name do no harm: they match themselves.  A backslash does
not: it is the escape character, so a name with one may fail to match the pattern made of it, and
its schedule is then not found, not triggered and not backfilled.
-/

namespace Durare.Postgres

open List

/-- `LIKE`: `%` stands for any text, `_` for any character, and a backslash takes the next one as it
is. -/
def like : List Char → List Char → Bool
  | [], text => text.isEmpty
  | '%' :: pattern, text => text.tails.any (like pattern)
  | '_' :: pattern, text => match text with
    | [] => false
    | _ :: text => like pattern text
  | '\\' :: p :: pattern, text => match text with
    | [] => false
    | c :: text => p = c && like pattern text
  | p :: pattern, text => match text with
    | [] => false
    | c :: text => p = c && like pattern text

/-- The table `workflow_schedules`; names are unique. -/
structure ScheduleTable where
  rows : List WorkflowSchedule
  unique : (rows.map (·.scheduleName)).Nodup

/-- The row passes the `WHERE` clause. -/
def passes (filter : ScheduleFilter) (s : WorkflowSchedule) : Bool :=
  (filter.statuses.isEmpty || filter.statuses.contains s.status) &&
    (filter.workflowNames.isEmpty || filter.workflowNames.contains s.workflowName) &&
    (filter.namePrefixes.isEmpty ||
      filter.namePrefixes.any fun p => like (p.toList ++ ['%']) s.scheduleName.toList)

def listSchedules (table : ScheduleTable) (filter : ScheduleFilter) : List WorkflowSchedule :=
  (table.rows.filter (passes filter)).mergeSort fun a b => a.scheduleName ≤ b.scheduleName

/-- The provider answers a listing from its table. -/
def handle : (e : ScheduleEff) → ScheduleTable → ScheduleAnswer e → ScheduleTable → Prop
  | .listSchedules filter, table, r, table' => r = .ok (listSchedules table filter) ∧ table' = table
  | _, _, _, _ => False

/-- `get_schedule` returns the schedule with this name, and none only if there is none. -/
def Finds (table : ScheduleTable) (name : String) : Prop :=
  ∃ found, (∀ s, found = some s ↔ s ∈ table.rows ∧ s.scheduleName = name) ∧
    Proc.Runs handle (fun _ _ => False) (getSchedule name) table
      [⟨.listSchedules { namePrefixes := [name] }, table,
        .ok (listSchedules table { namePrefixes := [name] }), table⟩] (.ok found) table

/-! ## Patterns -/

theorem like_plain {p c : Char} (hany : p ≠ '%') (hone : p ≠ '_') (hescape : p ≠ '\\')
    (pattern text : List Char) :
    like (p :: pattern) (c :: text) = (decide (p = c) && like pattern text) := by
  rw [like.eq_def]
  split <;> simp_all

/-- A pattern that ends in `%` matches whatever the rest of it matches the start of. -/
theorem like_self_append {name : List Char} (h : '\\' ∉ name) (rest : List Char) :
    like (name ++ ['%']) (name ++ rest) = true := by
  induction name with
  | nil => simp [like, List.any_eq_true]
  | cons c name ih =>
    have hrest := ih fun h' => h (mem_cons_of_mem _ h')
    have hc : c ≠ '\\' := fun hc => h (hc ▸ mem_cons_self)
    rw [cons_append, cons_append]
    by_cases hany : c = '%'
    · subst hany
      simp only [like, List.any_eq_true, mem_tails]
      exact ⟨_, suffix_cons _ _, hrest⟩
    · by_cases hone : c = '_'
      · subst hone
        exact hrest
      · rw [like_plain hany hone hc]
        simpa using hrest

/-- In a name without `%`, a backslash that escapes anything but a backslash is not matched. -/
theorem not_like_self {before after : List Char} {c : Char} (hbefore : '\\' ∉ before)
    (hany : '%' ∉ before) (hc : c ≠ '\\') (pattern : List Char) :
    like (before ++ '\\' :: c :: pattern) (before ++ '\\' :: after) = false := by
  induction before with
  | nil => simp [like, hc]
  | cons b before ih =>
    have hrest := ih (fun h => hbefore (mem_cons_of_mem _ h))
      fun h => hany (mem_cons_of_mem _ h)
    have hb : b ≠ '\\' := fun hb => hbefore (hb ▸ mem_cons_self)
    have hb' : b ≠ '%' := fun hb => hany (hb ▸ mem_cons_self)
    rw [cons_append, cons_append]
    by_cases hone : b = '_'
    · subst hone
      exact hrest
    · rw [like_plain hb' hone hb]
      simpa using hrest

/-! ## The lookup -/

variable {name : String} {s : WorkflowSchedule} {table : ScheduleTable}

theorem mem_listSchedules :
    s ∈ listSchedules table { namePrefixes := [name] } ↔
      s ∈ table.rows ∧ like (name.toList ++ ['%']) s.scheduleName.toList = true := by
  simp [listSchedules, passes]

/-- What `get_schedule` picks: the row with the name, if it is listed under its own pattern. -/
theorem find_listSchedules :
    (listSchedules table { namePrefixes := [name] }).find? (·.scheduleName = name) = some s ↔
      (s ∈ table.rows ∧ s.scheduleName = name) ∧
        like (name.toList ++ ['%']) name.toList = true := by
  constructor
  · intro h
    obtain ⟨hmem, hlike⟩ := mem_listSchedules.mp (mem_of_find?_eq_some h)
    obtain rfl : s.scheduleName = name := by simpa using find?_some h
    exact ⟨⟨hmem, rfl⟩, hlike⟩
  · rintro ⟨⟨hmem, rfl⟩, hlike⟩
    cases h : (listSchedules table { namePrefixes := [s.scheduleName] }).find?
        (fun t => t.scheduleName = s.scheduleName) with
    | none => simpa using find?_eq_none.mp h s (mem_listSchedules.mpr ⟨hmem, hlike⟩)
    | some t =>
      have hname : t.scheduleName = s.scheduleName := by simpa using find?_some h
      have ht := (mem_listSchedules.mp (mem_of_find?_eq_some h)).1
      rw [inj_on_of_nodup_map table.unique ht hmem hname]

/-- The one run of `get_schedule`. -/
theorem finds_iff : Finds table name ↔
    ∀ s ∈ table.rows, s.scheduleName = name → like (name.toList ++ ['%']) name.toList = true := by
  constructor
  · rintro ⟨found, hfound, hruns⟩ s hs hname
    have hsome := (hfound s).mpr ⟨hs, hname⟩
    cases hruns with
    | call _ rest =>
      cases rest with
      | ret => exact (find_listSchedules.mp hsome).2
      | env h => exact h.elim
    | env h => exact h.elim
  · intro h
    refine ⟨_, fun s => ?_, .call ⟨rfl, rfl⟩ .ret⟩
    exact find_listSchedules.trans ⟨And.left, fun hs => ⟨hs, h s hs.1 hs.2⟩⟩

/-- A table with one schedule. -/
def sole (name : String) : ScheduleTable where
  rows := [{ scheduleId := "1", scheduleName := name, workflowName := "report",
             schedule := "0 0 3 * * *" }]
  unique := nodup_singleton _

/-- **A schedule is found by its name in every table exactly if the name matches, as a pattern
followed by `%`, itself.**  Every name without a backslash does; a name without `%` whose first
backslash does not stand before another does not. -/
theorem schedule_found_iff (name : String) :
    ((∀ table, Finds table name) ↔ like (name.toList ++ ['%']) name.toList = true) ∧
      ('\\' ∉ name.toList → like (name.toList ++ ['%']) name.toList = true) ∧
      ∀ before c after, name.toList = before ++ '\\' :: c :: after → '\\' ∉ before →
        '%' ∉ before → c ≠ '\\' → like (name.toList ++ ['%']) name.toList = false := by
  refine ⟨⟨fun h => ?_, fun hlike table => finds_iff.mpr fun _ _ _ => hlike⟩, fun h => ?_, ?_⟩
  · exact finds_iff.mp (h (sole name)) _ mem_cons_self rfl
  · simpa using like_self_append h []
  · rintro before c after hname hbefore hany hc
    rw [hname, append_assoc]
    exact not_like_self hbefore hany hc _

/-- **A schedule that was created is not found**: its name ends in a backslash. -/
theorem created_not_found : ¬Finds (sole "night\\") "night\\" := by
  intro h
  exact absurd (finds_iff.mp h _ mem_cons_self rfl) (by decide)

end Durare.Postgres
