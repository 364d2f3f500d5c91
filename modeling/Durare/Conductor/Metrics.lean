import Durare.Queries.Partition
import Durare.Queries.StepGroups
import Mathlib.Algebra.BigOperators.Group.List.Basic

/-!
# Conductor/Metrics — workflows and steps counted in a window

`handle_get_metrics` counts the workflows created and the steps completed in a window, by name.  The
window is meant to be half-open, but both filters keep a row at either end: what falls on the cut
between two windows is counted in both.
-/

namespace Durare

open List

open Memory

structure GetMetricsRequest where
  metricClass : String
  startTime : String
  endTime : String

/-- One entry of the answer.  The value is written as an `f64`. -/
structure Metric where
  metricType : String
  metricName : String
  value : Int
  deriving DecidableEq, Repr

/-- The engine's `get_workflow_aggregates`, over the in-memory backend. -/
def workflowAggregates (q : WorkflowAggregateQuery) (g : Inner) :
    Except Error (List WorkflowAggregate) :=
  if q.isEmpty then .error (.app "get_workflow_aggregates requires at least one grouping dimension")
  else if q.noSelect then
    .error (.app "get_workflow_aggregates requires at least one selected aggregate")
  else (getWorkflowAggregates q g).1

/-- The engine's `get_step_aggregates`. -/
def stepAggregates (q : StepAggregateQuery) (g : Inner) : Except Error (List StepAggregate) :=
  if q.noGrouping then .error (.app "get_step_aggregates requires at least one grouping dimension")
  else if q.noSelect then
    .error (.app "get_step_aggregates requires at least one selected aggregate")
  else (getStepAggregates q g).1

/-- The query for workflows by name. -/
def workflowQuery (start till : Int) : WorkflowAggregateQuery :=
  { byName := true, selectCount := true, startTimeMs := some start, endTimeMs := some till }

/-- The query for steps by function name. -/
def stepQuery (start till : Int) : StepAggregateQuery :=
  { byFunctionName := true, selectCount := true, completedAfterMs := some start,
    completedBeforeMs := some till }

/-- One entry for each group that has a name and a count. -/
def named (metricType dimension : String) (groups : List (Group × Option Int)) : List Metric :=
  groups.filterMap fun r => match r.1.lookup dimension, r.2 with
    | some (some name), some count => some ⟨metricType, name, count⟩
    | _, _ => none

/-- `handle_get_metrics`, up to the response it sends: the metrics, or the error message.  `parse`
is `DateTime::parse_from_rfc3339`. -/
def handleGetMetrics (parse : String → Except String DateTime) (req : GetMetricsRequest)
    (g : Inner) : Except String (List Metric) :=
  let failed (e : Error) := "Exception encountered when getting metrics: " ++ e.message
  if req.metricClass ≠ "workflow_step_count" then
    .error ("Unexpected metric class: " ++ req.metricClass)
  else do
    let start ← (parse req.startTime).mapError ("invalid start_time: " ++ ·)
    let till ← (parse req.endTime).mapError ("invalid end_time: " ++ ·)
    let workflows ← (workflowAggregates (workflowQuery start.timestampMillis till.timestampMillis)
      g).mapError failed
    let steps ← (stepAggregates (stepQuery start.timestampMillis till.timestampMillis)
      g).mapError failed
    return named "workflow_count" "name" (workflows.map fun a => (a.group, a.count)) ++
      named "step_count" "function_name" (steps.map fun a => (a.group, a.count))

/-- The count that is reported for a name; a name that is left out counts 0. -/
def reported (metricType name : String) (metrics : List Metric) : Int :=
  (metrics.map fun m => if m.metricType = metricType ∧ m.metricName = name then m.value else 0).sum

/-! ## What is counted -/

/-- The time is in the window, both ends included. -/
def within (start till : Int) (t : Option Int) : Bool := t.any fun t => start ≤ t && t ≤ till

section

variable {α : Type} {rows : List α} {key : α → List (String × Option String)} {nameOf : α → String}
  {dimension kind kind' : String}

/-- What a group adds to the count of a name. -/
def share (kind kind' dimension name : String) (r : Group × Option Int) : Int :=
  match r.1.lookup dimension, r.2 with
  | some (some n), some count => if kind' = kind ∧ n = name then count else 0
  | _, _ => 0

theorem reported_named (groups : List (Group × Option Int)) (name : String) :
    reported kind name (named kind' dimension groups) =
      (groups.map (share kind kind' dimension name)).sum := by
  induction groups with
  | nil => rfl
  | cons r groups ih =>
    rw [map_cons, sum_cons, ← ih]
    unfold named share reported
    rw [filterMap_cons]
    split
    · next h => split at h <;> simp_all
    · next h =>
        split at h
        · cases h
          simp_all
        · cases h

/-- **The entries of a name count the rows with it.** -/
theorem reported_groups (hkey : ∀ a, key a = [(dimension, some (nameOf a))])
    {groups : List (Group × Option Int)} (hgroups : groups.Perm ((Grouping.groups key rows).map
      fun grp => (Group.collect grp.1, some (grp.2.length : Int)))) (name : String) :
    reported kind name (named kind' dimension groups) =
      if kind' = kind then ((rows.countP fun a => nameOf a = name : Nat) : Int) else 0 := by
  have hshare : ∀ k ∈ (rows.map key).dedup, share kind kind' dimension name
      (Group.collect k, some ((Grouping.members key rows k).length : Int)) =
        if k = [(dimension, some name)] then
          if kind' = kind then ((rows.countP fun a => nameOf a = name : Nat) : Int) else 0
        else 0 := by
    intro k hk
    obtain ⟨a, -, rfl⟩ := mem_map.mp (mem_dedup.mp hk)
    have hmembers : Grouping.members key rows (key a) =
        rows.filter fun b => nameOf b = nameOf a := by
      simp [Grouping.members, hkey]
    rw [hmembers, ← countP_eq_length_filter, hkey]
    by_cases hname : nameOf a = name
    · simp [share, Group.collect, Group.insert, hname]
    · simp [share, Group.collect, Group.insert, hname]
  rw [reported_named, (hgroups.map _).sum_eq, Grouping.groups, List.map_map, List.map_map]
  refine (congrArg List.sum (map_congr_left hshare)).trans ?_
  simp only [sum_map_ite_eq, count_dedup]
  split
  · simp
  · next hout =>
      have hnone : rows.countP (fun a => nameOf a = name) = 0 := by
        rw [countP_eq_zero]
        intro a ha hname
        exact hout (mem_map.mpr ⟨a, ha, by simpa [hkey] using hname⟩)
      simp [hnone]

end

/-- A row is counted in a window and a window that follows on it once, and once more on the cut. -/
theorem countP_within {α : Type} {a b c : Int} (hab : a ≤ b) (hbc : b ≤ c) (time : α → Option Int)
    (p : α → Bool) (rows : List α) :
    rows.countP (fun x => within a b (time x) && p x) +
        rows.countP (fun x => within b c (time x) && p x) =
      rows.countP (fun x => within a c (time x) && p x) +
        rows.countP (fun x => decide (time x = some b) && p x) := by
  have hone (t : Option Int) : (within a b t).toNat + (within b c t).toNat =
      (within a c t).toNat + (decide (t = some b)).toNat := by
    cases t with
    | none => rfl
    | some t =>
      simp only [within, Option.any_some, Option.some.injEq, Bool.toNat, cond_eq_ite,
        Bool.and_eq_true, decide_eq_true_eq]
      split_ifs <;> omega
  induction rows with
  | nil => rfl
  | cons x rows ih =>
    have hx := hone (time x)
    simp only [countP_cons]
    cases p x with
    | false => simpa using ih
    | true =>
      simp only [Bool.and_true, Bool.toNat, cond_eq_ite] at hx ⊢
      omega

/-- **What a window reports**: the workflows created and the steps completed in it. -/
theorem reported_metrics {parse : String → Except String DateTime} {startText endText : String}
    {start till : DateTime} (hstart : parse startText = .ok start) (hend : parse endText = .ok till)
    (g : Inner) : ∃ metrics,
    handleGetMetrics parse ⟨"workflow_step_count", startText, endText⟩ g = .ok metrics ∧
      ∀ name, reported "workflow_count" name metrics = (g.workflows.values.countP fun w =>
          within start.timestampMillis till.timestampMillis (some w.createdAt.timestampMillis) &&
            w.name = name : Nat) ∧
        reported "step_count" name metrics = ((g.steps.entries.map (·.2)).countP fun row =>
          within start.timestampMillis till.timestampMillis row.completedAtMs &&
            row.name = name : Nat) := by
  let wq := workflowQuery start.timestampMillis till.timestampMillis
  let sq := stepQuery start.timestampMillis till.timestampMillis
  obtain ⟨workflows, hworkflows, hwperm⟩ := getWorkflowAggregates_perm wq g rfl
  obtain ⟨steps, hsteps, hsperm⟩ := getStepAggregates_perm sq g rfl
  have hw := hwperm.map fun a => (a.group, a.count)
  have hs := hsperm.map fun a => (a.group, a.count)
  simp only [List.map_map, Function.comp_def, aggregate, foldl_add] at hw
  simp only [List.map_map, Function.comp_def, stepAggregate, foldl_addStep] at hs
  refine ⟨named "workflow_count" "name" (workflows.map fun a => (a.group, a.count)) ++
    named "step_count" "function_name" (steps.map fun a => (a.group, a.count)), ?_, fun name => ?_⟩
  · unfold handleGetMetrics
    rw [if_neg (by simp), hstart, hend]
    have hwf : workflowAggregates wq g = .ok workflows := hworkflows
    have hsf : stepAggregates sq g = .ok steps := hsteps
    simp only [Except.mapError, bind, Except.bind]
    rw [hwf, hsf]
    rfl
  · have happend (kind : String) (a b : List Metric) :
        reported kind name (a ++ b) = reported kind name a + reported kind name b := by
      simp [reported]
    have hwkey (w : WorkflowStatus) : aggKey wq w = [("name", some w.name)] := rfl
    have hskey (row : StepRow) : stepAggKey sq row = [("function_name", some row.name)] := rfl
    have hpass (w : WorkflowStatus) : aggPasses wq w = within start.timestampMillis
        till.timestampMillis (some w.createdAt.timestampMillis) := by
      simp [wq, workflowQuery, aggPasses, anyOf, anyOfOpt, noneOr, within]
    have hspass (id : String) (row : StepRow) : stepAggPasses sq id row =
        within start.timestampMillis till.timestampMillis row.completedAtMs := by
      cases hrow : row.completedAtMs <;>
        simp [sq, stepQuery, stepAggPasses, anyOf, noneOr, within, hrow]
    have hwcount : (counted wq g).countP (fun w => w.name = name) = g.workflows.values.countP
        fun w => within start.timestampMillis till.timestampMillis
          (some w.createdAt.timestampMillis) && w.name = name := by
      rw [counted, countP_filter]
      simp only [hpass, Bool.and_comm]
    have hscount : (countedSteps sq g).countP (fun row => row.name = name) =
        (g.steps.entries.map (·.2)).countP fun row => within start.timestampMillis
          till.timestampMillis row.completedAtMs && row.name = name := by
      rw [countedSteps, countP_map, countP_filter, countP_map]
      simp only [hspass, Function.comp_def, Bool.and_comm]
    rw [happend, happend, reported_groups hwkey hw, reported_groups hwkey hw,
      reported_groups hskey hs, reported_groups hskey hs, hwcount, hscount]
    simp

/-- **The counts of two windows add up, name by name, exactly if no workflow was created and no step
completed in the millisecond of the cut.** -/
theorem windows_additive_iff {parse : String → Except String DateTime} {ta tb tc : String}
    {a b c : DateTime} (ha : parse ta = .ok a) (hb : parse tb = .ok b) (hc : parse tc = .ok c)
    (hab : a ≤ b) (hbc : b ≤ c) (g : Inner) : ∃ whole first second,
    handleGetMetrics parse ⟨"workflow_step_count", ta, tc⟩ g = .ok whole ∧
    handleGetMetrics parse ⟨"workflow_step_count", ta, tb⟩ g = .ok first ∧
    handleGetMetrics parse ⟨"workflow_step_count", tb, tc⟩ g = .ok second ∧
    ((∀ name,
        reported "workflow_count" name whole =
          reported "workflow_count" name first + reported "workflow_count" name second ∧
        reported "step_count" name whole =
          reported "step_count" name first + reported "step_count" name second) ↔
      (∀ w ∈ g.workflows.values, w.createdAt.timestampMillis ≠ b.timestampMillis) ∧
        ∀ row ∈ g.steps.entries.map (·.2), row.completedAtMs ≠ some b.timestampMillis) := by
  obtain ⟨whole, hwhole, hwholeCount⟩ := reported_metrics ha hc g
  obtain ⟨first, hfirst, hfirstCount⟩ := reported_metrics ha hb g
  obtain ⟨second, hsecond, hsecondCount⟩ := reported_metrics hb hc g
  refine ⟨whole, first, second, hwhole, hfirst, hsecond, ?_⟩
  have hcut {α : Type} (time : α → Option Int) (nameOf : α → String) (rows : List α) :=
    fun name => countP_within (DateTime.timestampMillis_mono hab)
      (DateTime.timestampMillis_mono hbc) time (fun x => nameOf x = name) rows
  have hnone {α : Type} (time : α → Option Int) (nameOf : α → String) (rows : List α) :
      (∀ name, rows.countP (fun x =>
        decide (time x = some b.timestampMillis) && nameOf x = name) = 0) ↔
      ∀ x ∈ rows, time x ≠ some b.timestampMillis := by
    simp only [countP_eq_zero, Bool.and_eq_true, decide_eq_true_eq, not_and]
    exact ⟨fun h x hx ht => h _ x hx ht rfl, fun h _ x hx ht => absurd ht (h x hx)⟩
  have hworkflows := hnone (fun w : WorkflowStatus => some w.createdAt.timestampMillis) (·.name)
    g.workflows.values
  have hsteps := hnone (·.completedAtMs) (·.name) (g.steps.entries.map (·.2))
  simp only [Ne, Option.some.injEq] at hworkflows hsteps ⊢
  rw [← hworkflows, ← hsteps, ← forall_and]
  refine forall_congr' fun name => ?_
  have hw := hcut (fun w : WorkflowStatus => some w.createdAt.timestampMillis) (·.name)
    g.workflows.values name
  have hs := hcut (·.completedAtMs) (·.name) (g.steps.entries.map (·.2)) name
  simp only [Option.some.injEq] at hw
  rw [(hwholeCount name).1, (hwholeCount name).2, (hfirstCount name).1, (hfirstCount name).2,
    (hsecondCount name).1, (hsecondCount name).2]
  omega

/-- The texts of three instants, a second apart. -/
def seconds : String → Except String DateTime
  | "first" => .ok ⟨0⟩
  | "second" => .ok ⟨1000000000⟩
  | "third" => .ok ⟨2000000000⟩
  | _ => .error "premature end of input"

/-- One workflow, created in the millisecond `ms`. -/
def createdAt (ms : Int) : Inner where
  workflows := AList.singleton "wf" (.new ⟨ms * 1000000⟩ "wf" "report" .null .pending "local" "")

theorem windows_additive_iff_inside : ∃ whole first second,
    handleGetMetrics seconds ⟨"workflow_step_count", "first", "third"⟩ (createdAt 500) = .ok whole ∧
    handleGetMetrics seconds ⟨"workflow_step_count", "first", "second"⟩ (createdAt 500) =
      .ok first ∧
    handleGetMetrics seconds ⟨"workflow_step_count", "second", "third"⟩ (createdAt 500) =
      .ok second ∧
    ∀ name, reported "workflow_count" name whole =
      reported "workflow_count" name first + reported "workflow_count" name second := by
  obtain ⟨whole, first, second, hwhole, hfirst, hsecond, hiff⟩ :=
    windows_additive_iff (show seconds "first" = .ok ⟨0⟩ from rfl)
      (show seconds "second" = .ok ⟨1000000000⟩ from rfl)
      (show seconds "third" = .ok ⟨2000000000⟩ from rfl) (by decide) (by decide) (createdAt 500)
  exact ⟨whole, first, second, hwhole, hfirst, hsecond,
    fun name => (hiff.mpr ⟨by decide, by decide⟩ name).1⟩

/-- **A workflow on the cut is counted twice.** -/
theorem cut_counted_twice : ∃ whole first second,
    handleGetMetrics seconds ⟨"workflow_step_count", "first", "third"⟩ (createdAt 1000) =
      .ok whole ∧
    handleGetMetrics seconds ⟨"workflow_step_count", "first", "second"⟩ (createdAt 1000) =
      .ok first ∧
    handleGetMetrics seconds ⟨"workflow_step_count", "second", "third"⟩ (createdAt 1000) =
      .ok second ∧
    reported "workflow_count" "report" whole = 1 ∧ reported "workflow_count" "report" first = 1 ∧
      reported "workflow_count" "report" second = 1 := by
  have hfirst : seconds "first" = .ok ⟨0⟩ := rfl
  have hsecond : seconds "second" = .ok ⟨1000000000⟩ := rfl
  have hthird : seconds "third" = .ok ⟨2000000000⟩ := rfl
  obtain ⟨whole, hac, hw⟩ := reported_metrics hfirst hthird (createdAt 1000)
  obtain ⟨first, hab, hf⟩ := reported_metrics hfirst hsecond (createdAt 1000)
  obtain ⟨second, hbc, hs⟩ := reported_metrics hsecond hthird (createdAt 1000)
  exact ⟨whole, first, second, hac, hab, hbc, (hw "report").1, (hf "report").1,
    (hs "report").1⟩

end Durare
