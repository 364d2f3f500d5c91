import Durare.Operations.Collection
import Mathlib.Order.Bounds.Basic

/-!
# Operations/Retention — what a garbage collection deletes

A collection has a cutoff of its own and one that it derives: the creation time of the `n`-th newest
row, with `n` the number of rows to keep.  The larger of the two counts, and every terminal row
created strictly before it is deleted.  The rows are found with a filter whose bound is inclusive,
so the collection steps one millisecond back — which wraps around at the smallest `i64`.

`collects_iff`: a collection deletes exactly what it should, unless it is that cutoff that counts
and there is a terminal row.
-/

namespace Durare.Memory

open List

/-- The smallest `i64`. -/
def I64_MIN : Int := -0x8000000000000000

/-- How many rows were created, in milliseconds, after `t` — or at `t` already. -/
def createdAfter (g : Inner) (t : Int) : Nat :=
  g.workflows.values.countP fun w => t < w.createdAt.timestampMillis

@[inherit_doc createdAfter] def createdFrom (g : Inner) (t : Int) : Nat :=
  g.workflows.values.countP fun w => t ≤ w.createdAt.timestampMillis

/-- The `n`-th newest row was created at `t`: fewer than `n` rows are newer than `t`, and `n` are
not older. -/
def NthNewest (g : Inner) (n t : Int) : Prop := createdAfter g t < n ∧ n ≤ createdFrom g t

/-- The bounds a collection is given, the derived one included. -/
def Bounds (cutoff threshold : Option Int) (g : Inner) : Set Int :=
  { c | cutoff = some c ∨ ∃ n, threshold = some n ∧ NthNewest g n c }

/-- The row is terminal, and was created before the larger bound. -/
def Outdated (cutoff threshold : Option Int) (g : Inner) (row : WorkflowStatus) : Prop :=
  row.status.isTerminal = true ∧
    ∃ c, IsGreatest (Bounds cutoff threshold g) c ∧ row.createdAt.timestampMillis < c

/-- **A collection deletes exactly the outdated rows** and counts them; without a bound it does
nothing, and with a number of rows to keep alone it keeps that many. -/
structure CollectsExactly (cutoff threshold : Option Int) (g : Inner) : Prop where
  rows : ∀ id row, (garbageCollect cutoff threshold g).2.workflows.lookup id = some row ↔
    g.workflows.lookup id = some row ∧ ¬Outdated cutoff threshold g row
  count : ∃ deleted : Finset String, (garbageCollect cutoff threshold g).1 = .ok deleted.card ∧
    ∀ id, id ∈ deleted ↔ ∃ row, g.workflows.lookup id = some row ∧ Outdated cutoff threshold g row
  idle : Bounds cutoff threshold g = ∅ → (garbageCollect cutoff threshold g).2 = g
  newest : cutoff = none → ∀ n, threshold = some n → ∀ id row, g.workflows.lookup id = some row →
    (g.workflows.values.countP fun w => row.createdAt < w.createdAt) < n →
      (garbageCollect cutoff threshold g).2.workflows.lookup id = some row

/-- What the types promise: a cutoff is an `i64`, an instant is far from the ends of the range, and
a number of rows that is not positive is refused. -/
structure WellTyped (cutoff threshold : Option Int) (g : Inner) : Prop where
  cutoff : ∀ c, cutoff = some c → FitsI64 c
  threshold : ∀ n, threshold = some n → 0 < n
  instants : ∀ id row, g.workflows.lookup id = some row →
    FitsI64 row.createdAt.timestampMillis ∧ row.createdAt.timestampMillis ≠ I64_MIN

/-- The step back from the cutoff wraps around, and there is a row to delete. -/
def Wraps (cutoff threshold : Option Int) (g : Inner) : Prop :=
  cutoff = some I64_MIN ∧ (∀ n, threshold = some n → g.workflows.values.length < n) ∧
    ∃ id row, g.workflows.lookup id = some row ∧ row.status.isTerminal = true

variable {g : Inner} {cutoff threshold : Option Int} {id : String} {n t : Int}

/-! ## The n-th newest row -/

theorem NthNewest.unique {t' : Int} (h : NthNewest g n t) (h' : NthNewest g n t') : t = t' := by
  -- With `t < t'`, whoever is not older than `t'` is newer than `t`.
  have key {t t' : Int} (h : NthNewest g n t) (h' : NthNewest g n t') : ¬t < t' := by
    intro hlt
    have hle : createdFrom g t' ≤ createdAfter g t :=
      countP_mono_left fun w _ hw => decide_eq_true (Int.lt_of_lt_of_le hlt (of_decide_eq_true hw))
    have h₁ := h.1
    have h₂ := h'.2
    omega
  exact Int.le_antisymm (Int.not_lt.mp (key h' h)) (Int.not_lt.mp (key h h'))

theorem NthNewest.exists_row (h : NthNewest g n t) :
    ∃ id row, g.workflows.lookup id = some row ∧ row.createdAt.timestampMillis = t := by
  by_contra hnone
  have hsame : createdFrom g t ≤ createdAfter g t := by
    refine countP_mono_left fun w hw ht => ?_
    obtain ⟨id, hid⟩ := AList.mem_values.mp hw
    have hne : w.createdAt.timestampMillis ≠ t := fun heq => hnone ⟨id, w, hid, heq⟩
    have hle : t ≤ w.createdAt.timestampMillis := of_decide_eq_true ht
    exact decide_eq_true (by omega)
  have h₁ := h.1
  have h₂ := h.2
  omega

theorem NthNewest.le_length (h : NthNewest g n t) : n ≤ g.workflows.values.length := by
  have h₁ : createdFrom g t ≤ g.workflows.values.length := countP_le_length
  have h₂ := h.2
  omega

/-- The rows as a collection lists them: newest first. -/
def newestFirst (g : Inner) : List WorkflowStatus :=
  (g.workflows.values.mergeSort fun a b => a.createdAt ≤ b.createdAt).reverse

theorem newestFirst_perm (g : Inner) : (newestFirst g).Perm g.workflows.values :=
  (reverse_perm _).trans (mergeSort_perm _ _)

theorem newestFirst_sorted (g : Inner) :
    (newestFirst g).Pairwise fun a b => b.createdAt.timestampMillis ≤
      a.createdAt.timestampMillis := by
  rw [newestFirst, pairwise_reverse]
  exact pairwise_mergeSort_createdAt g.workflows.values

/-- The row at place `n - 1` of the list is the `n`-th newest. -/
theorem nthNewest_of_getElem? {w : WorkflowStatus} (hn : 0 < n)
    (hw : (newestFirst g)[(n - 1).toNat]? = some w) :
      NthNewest g n w.createdAt.timestampMillis := by
  obtain ⟨hlt, hget⟩ := List.getElem?_eq_some_iff.mp hw
  have hsplit : newestFirst g = (newestFirst g).take (n - 1).toNat ++
      w :: (newestFirst g).drop ((n - 1).toNat + 1) := by
    rw [← hget, ← drop_eq_getElem_cons hlt, take_append_drop]
  have hlen : ((newestFirst g).take (n - 1).toNat).length = (n - 1).toNat := by
    rw [length_take]
    omega
  have hsorted := newestFirst_sorted g
  rw [hsplit, pairwise_append, pairwise_cons] at hsorted
  obtain ⟨-, ⟨hrest, -⟩, hbefore⟩ := hsorted
  constructor
  · -- Only the rows before `w` can be newer.
    have hnone : ((newestFirst g).drop ((n - 1).toNat + 1)).countP (fun x =>
        w.createdAt.timestampMillis < x.createdAt.timestampMillis) = 0 :=
      countP_eq_zero.mpr fun x hx => by simpa using hrest x hx
    have hafter : createdAfter g w.createdAt.timestampMillis ≤ (n - 1).toNat := by
      rw [createdAfter, ← (newestFirst_perm g).countP_eq, hsplit, countP_append,
        countP_cons_of_neg (by simp), hnone]
      exact countP_le_length.trans_eq hlen
    omega
  · -- All of them and `w` are not older.
    have hfrom : (n - 1).toNat + 1 ≤ createdFrom g w.createdAt.timestampMillis := by
      rw [createdFrom, ← (newestFirst_perm g).countP_eq, hsplit, countP_append,
        countP_cons_of_pos (by simp), countP_eq_length.mpr fun x hx =>
          decide_eq_true (hbefore x hx w mem_cons_self), hlen]
      omega
    omega

/-! ## The cutoff that counts -/

theorem head_listWorkflows_nthNewest (n : Int) (g : Inner) : ∃ rows,
    (listWorkflows (nthNewest n) g).1 = .ok rows ∧
      rows.head? = ((newestFirst g)[(max (n - 1) 0).toNat]?).map (project (nthNewest n)) := by
  refine ⟨_, rfl, ?_⟩
  have hall : g.workflows.values.filter (passes (nthNewest n) []) = g.workflows.values :=
    filter_eq_self.mpr fun w _ => by simp [passes, nthNewest, anyOf, anyOfOpt, noneOr]
  change (((((g.workflows.values.filter (passes (nthNewest n) [])).mergeSort fun a b =>
    decide (a.createdAt ≤ b.createdAt)).reverse.drop (max (n - 1) 0).toNat).take
      (max (1 : Int) 0).toNat).map (project (nthNewest n))).head? = _
  rw [hall, head?_map, head?_take, if_neg (by decide), head?_drop]
  rfl

/-- The larger of the given cutoff and the creation time of the row that was listed. -/
theorem resolveGcCutoff_eq (hn : 0 < n) {rows : List WorkflowStatus}
    (hrows : (listWorkflows (nthNewest n) g).1 = .ok rows) :
    (resolveGcCutoff cutoff (some n) g).1 = .ok (rows.head?.elim cutoff fun w =>
      if cutoff.all (· < w.createdAt.timestampMillis) then some w.createdAt.timestampMillis
      else cutoff) := by
  have hlist : listWorkflows (nthNewest n) g = (.ok rows, g) := Prod.ext hrows rfl
  unfold resolveGcCutoff
  dsimp only
  rw [if_neg (by omega), hlist]
  cases rows <;> rfl

/-- The derived bound: the creation time of the `n`-th newest row, or none with fewer rows. -/
theorem resolveGcCutoff_some (hn : 0 < n) :
    ((∃ t, NthNewest g n t ∧ (resolveGcCutoff cutoff (some n) g).1 =
      .ok (if cutoff.all (· < t) then some t else cutoff)) ∨
    (g.workflows.values.length < n ∧ (resolveGcCutoff cutoff (some n) g).1 = .ok cutoff)) := by
  obtain ⟨rows, hrows, hhead⟩ := head_listWorkflows_nthNewest n g
  rw [Int.max_eq_left (by omega)] at hhead
  rw [resolveGcCutoff_eq hn hrows, hhead]
  cases hget : (newestFirst g)[(n - 1).toNat]? with
  | none =>
    have hshort := List.getElem?_eq_none_iff.mp hget
    rw [(newestFirst_perm g).length_eq] at hshort
    exact .inr ⟨by omega, rfl⟩
  | some w => exact .inl ⟨_, nthNewest_of_getElem? hn hget, rfl⟩

theorem bounds_none (cutoff : Option Int) (g : Inner) :
    Bounds cutoff none g = { c | cutoff = some c } := by
  refine Set.ext fun c => ⟨fun hc => hc.resolve_right ?_, .inl⟩
  rintro ⟨n, heq, -⟩
  cases heq

theorem bounds_short (h : g.workflows.values.length < n) :
    Bounds cutoff (some n) g = { c | cutoff = some c } := by
  refine Set.ext fun c => ⟨fun hc => hc.resolve_right ?_, .inl⟩
  rintro ⟨n', heq, hc⟩
  cases heq
  have hle := hc.le_length
  omega

theorem bounds_nthNewest (h : NthNewest g n t) :
    Bounds cutoff (some n) g = { c | cutoff = some c ∨ c = t } := by
  refine Set.ext fun c => or_congr_right ⟨?_, ?_⟩
  · rintro ⟨n', heq, hc⟩
    cases heq
    exact hc.unique h
  · rintro rfl
    exact ⟨n, rfl, h⟩

/-- **What a collection resolves its bounds to** is the larger one. -/
theorem resolveGcCutoff_isGreatest (hpos : ∀ n, threshold = some n → 0 < n) :
    ((resolveGcCutoff cutoff threshold g).1 = .ok none ∧ Bounds cutoff threshold g = ∅) ∨
    ∃ c, (resolveGcCutoff cutoff threshold g).1 = .ok (some c) ∧
      IsGreatest (Bounds cutoff threshold g) c := by
  -- Without a derived bound the given one is all there is.
  have hgiven (hbounds : Bounds cutoff threshold g = { c | cutoff = some c })
      (hresolve : (resolveGcCutoff cutoff threshold g).1 = .ok cutoff) :
      ((resolveGcCutoff cutoff threshold g).1 = .ok none ∧ Bounds cutoff threshold g = ∅) ∨
      ∃ c, (resolveGcCutoff cutoff threshold g).1 = .ok (some c) ∧
        IsGreatest (Bounds cutoff threshold g) c := by
    rw [hbounds, hresolve]
    cases cutoff with
    | none => exact .inl ⟨rfl, Set.eq_empty_of_forall_notMem fun c hc => nomatch hc⟩
    | some c => exact .inr ⟨c, rfl, rfl, fun c' hc' => (Option.some.inj hc').ge⟩
  cases threshold with
  | none => exact hgiven (bounds_none cutoff g) rfl
  | some n =>
    rcases @resolveGcCutoff_some g cutoff n (hpos n rfl) with
      ⟨t, ht, hresolve⟩ | ⟨hshort, hresolve⟩
    · refine .inr ?_
      rw [hresolve, bounds_nthNewest ht]
      cases cutoff with
      | none => exact ⟨t, rfl, .inr rfl, fun c hc => (hc.resolve_left nofun).le⟩
      | some c =>
        by_cases hlt : c < t
        · refine ⟨t, by simp [hlt], .inr rfl, fun c' hc' => ?_⟩
          rcases hc' with hc' | rfl
          · cases hc'
            exact Int.le_of_lt hlt
          · exact Int.le_refl _
        · refine ⟨c, by simp [hlt], .inl rfl, fun c' hc' => ?_⟩
          rcases hc' with hc' | rfl
          · cases hc'
            exact Int.le_refl _
          · exact Int.not_lt.mp hlt
    · exact hgiven (bounds_short hshort) hresolve

/-! ## What is deleted -/

/-- The larger bound, if there is one, is what the collection works with. -/
theorem resolveGcCutoff_eq_some {c : Int} (hpos : ∀ n, threshold = some n → 0 < n) :
    (resolveGcCutoff cutoff threshold g).1 = .ok (some c) ↔
      IsGreatest (Bounds cutoff threshold g) c := by
  rcases @resolveGcCutoff_isGreatest g cutoff threshold hpos with ⟨hres, hb⟩ | ⟨c', hres, hb⟩
  · rw [hres, hb]
    exact ⟨nofun, fun h => h.1.elim⟩
  · rw [hres]
    constructor
    · intro h
      cases h
      exact hb
    · intro h
      rw [h.unique hb]

/-- The smallest `i64` is the larger bound only if it was given, and there are too few rows for a
derived one. -/
theorem isGreatest_min (h : WellTyped cutoff threshold g)
    (hmin : IsGreatest (Bounds cutoff threshold g) I64_MIN) :
    cutoff = some I64_MIN ∧ ∀ n, threshold = some n → g.workflows.values.length < n := by
  have hderived {t : Int} (n : Int) (ht : NthNewest g n t) : t ≠ I64_MIN ∧ I64_MIN ≤ t := by
    obtain ⟨id, row, hrow, rfl⟩ := ht.exists_row
    exact ⟨(h.instants id row hrow).2, (h.instants id row hrow).1.1⟩
  constructor
  · rcases hmin.1 with hgiven | ⟨n, -, ht⟩
    · exact hgiven
    · exact absurd rfl (hderived n ht).1
  · rintro n rfl
    rcases @resolveGcCutoff_some g cutoff n (h.threshold n rfl) with
      ⟨t, ht, -⟩ | ⟨hshort, -⟩
    · have hle : t ≤ I64_MIN := hmin.2 (.inr ⟨n, rfl, ht⟩)
      obtain ⟨hne, hge⟩ := hderived n ht
      exact absurd (Int.le_antisymm hle hge) hne
    · exact hshort

/-- Away from the smallest `i64` the step back does not wrap around. -/
theorem le_stepBack {c : Int} (hfits : FitsI64 c) (hc : c ≠ I64_MIN) : t ≤ i64 (c - 1) ↔ t < c := by
  have hback : FitsI64 (c - 1) := by
    unfold FitsI64 I64_MIN at *
    omega
  rw [i64_of_fits hback, Int.le_sub_one_iff]

theorem fitsI64_bound {c : Int} (h : WellTyped cutoff threshold g)
    (hc : IsGreatest (Bounds cutoff threshold g) c) : FitsI64 c := by
  rcases hc.1 with hgiven | ⟨n, -, ht⟩
  · exact h.cutoff c hgiven
  · obtain ⟨id, row, hrow, rfl⟩ := ht.exists_row
    exact (h.instants id row hrow).1

/-- **A row is condemned exactly if it is outdated**, unless the step back wraps around. -/
theorem condemned_iff (h : WellTyped cutoff threshold g) (hwraps : ¬Wraps cutoff threshold g) :
    Condemned cutoff threshold g id ↔
      ∃ row, g.workflows.lookup id = some row ∧ Outdated cutoff threshold g row := by
  have hback {c : Int} {row : WorkflowStatus} (hrow : g.workflows.lookup id = some row)
      (hterminal : row.status.isTerminal = true) (hc : IsGreatest (Bounds cutoff threshold g) c) :
      row.createdAt.timestampMillis ≤ i64 (c - 1) ↔ row.createdAt.timestampMillis < c := by
    refine le_stepBack (fitsI64_bound h hc) fun hmin => hwraps ?_
    subst hmin
    obtain ⟨hgiven, hshort⟩ := isGreatest_min h hc
    exact ⟨hgiven, hshort, id, row, hrow, hterminal⟩
  constructor
  · rintro ⟨c, row, hresolve, hrow, hterminal, hold⟩
    have hc := (resolveGcCutoff_eq_some h.threshold).mp hresolve
    exact ⟨row, hrow, hterminal, c, hc, (hback hrow hterminal hc).mp hold⟩
  · rintro ⟨row, hrow, hterminal, c, hc, hold⟩
    exact ⟨c, row, (resolveGcCutoff_eq_some h.threshold).mpr hc, hrow, hterminal,
      (hback hrow hterminal hc).mpr hold⟩

theorem nodup_victims (hg : WellKeyed g) : (victims cutoff threshold g).Nodup := by
  unfold victims
  split
  · next c _ =>
      rw [listWorkflows_victims]
      dsimp only
      rw [List.map_map]
      refine ((mergeSort_perm _ _).map _).nodup_iff.mpr ?_
      exact (AList.nodup_map_values hg).sublist (filter_sublist.map _)
  · exact nodup_nil

theorem garbageCollect_answer (hpos : ∀ n, threshold = some n → 0 < n) :
    (garbageCollect cutoff threshold g).1 = .ok (victims cutoff threshold g).length := by
  have hstate := resolveGcCutoff_state cutoff threshold g
  unfold garbageCollect victims
  rcases @resolveGcCutoff_isGreatest g cutoff threshold hpos with ⟨hres, -⟩ | ⟨c, hres, -⟩
  · have heq : resolveGcCutoff cutoff threshold g = (.ok none, g) := Prod.ext hres hstate
    rw [heq]
    rfl
  · have heq : resolveGcCutoff cutoff threshold g = (.ok (some c), g) := Prod.ext hres hstate
    rw [heq]
    rfl

/-- A row that fewer than `n` rows are newer than is not older than the `n`-th newest. -/
theorem not_outdated_of_newest {row : WorkflowStatus} (hn : threshold = some n)
    (hfew : (g.workflows.values.countP fun w => row.createdAt < w.createdAt) < n) :
    ¬Outdated none threshold g row := by
  subst hn
  rintro ⟨-, c, ⟨hc, -⟩, hold⟩
  obtain ⟨n', heq, hc⟩ := hc.resolve_left nofun
  cases heq
  have hle : createdFrom g c ≤ g.workflows.values.countP fun w => row.createdAt < w.createdAt := by
    refine countP_mono_left fun w _ hw => decide_eq_true ?_
    have hc : c ≤ w.createdAt.timestampMillis := of_decide_eq_true hw
    refine Int.not_le.mp fun hback => ?_
    have hmono : w.createdAt.timestampMillis ≤ row.createdAt.timestampMillis :=
      DateTime.timestampMillis_mono hback
    omega
  have h₂ := hc.2
  omega

/-- **A collection deletes exactly what it should**, unless the step back from its cutoff wraps
around. -/
theorem collects_iff (hg : WellKeyed g) (h : WellTyped cutoff threshold g) :
    CollectsExactly cutoff threshold g ↔ ¬Wraps cutoff threshold g := by
  constructor
  · rintro hexact ⟨rfl, hshort, id, row, hrow, hterminal⟩
    -- The bound is the smallest `i64`, so no row is outdated, but every terminal one is condemned.
    have hbounds : Bounds (some I64_MIN) threshold g = { c | some I64_MIN = some c } := by
      cases threshold with
      | none => exact bounds_none _ g
      | some n => exact bounds_short (hshort n rfl)
    have hgreatest : IsGreatest (Bounds (some I64_MIN) threshold g) I64_MIN := by
      rw [hbounds]
      exact ⟨rfl, fun c hc => (Option.some.inj hc).ge⟩
    have hfits := (h.instants id row hrow).1
    have hcondemned : Condemned (some I64_MIN) threshold g id :=
      ⟨I64_MIN, row, (resolveGcCutoff_eq_some h.threshold).mpr hgreatest, hrow, hterminal,
        Int.le_of_lt_add_one hfits.2⟩
    have hgone := lookup_garbageCollect_of_condemned hg hcondemned
    have hkept := (hexact.rows id row).mpr ⟨hrow, fun ⟨_, c, hc, hold⟩ => ?_⟩
    · rw [hgone] at hkept
      cases hkept
    · rw [hc.unique hgreatest] at hold
      exact absurd hfits.1 (Int.not_le.mpr hold)
  · intro hwraps
    have hrows : ∀ id row, (garbageCollect cutoff threshold g).2.workflows.lookup id = some row ↔
        g.workflows.lookup id = some row ∧ ¬Outdated cutoff threshold g row := by
      intro id row
      by_cases hid : Condemned cutoff threshold g id
      · rw [lookup_garbageCollect_of_condemned hg hid]
        refine ⟨nofun, fun ⟨hrow, hnot⟩ => ?_⟩
        obtain ⟨row', hrow', hout⟩ := (condemned_iff h hwraps).mp hid
        rw [hrow] at hrow'
        cases hrow'
        exact absurd hout hnot
      · rw [lookup_garbageCollect hg hid]
        refine ⟨fun hrow => ⟨hrow, fun hout => hid ?_⟩, And.left⟩
        exact (condemned_iff h hwraps).mpr ⟨row, hrow, hout⟩
    refine ⟨hrows, ⟨(victims cutoff threshold g).toFinset, ?_, fun id => ?_⟩, ?_, ?_⟩
    · rw [garbageCollect_answer h.threshold, toFinset_card_of_nodup (nodup_victims hg)]
    · rw [mem_toFinset, mem_victims hg, condemned_iff h hwraps]
    · intro hempty
      have hvictims : victims cutoff threshold g = [] := by
        refine eq_nil_iff_forall_not_mem.mpr fun id hid => ?_
        obtain ⟨_, -, -, c, hc, -⟩ := (condemned_iff h hwraps).mp ((mem_victims hg).mp hid)
        rw [hempty] at hc
        exact hc.1
      rw [garbageCollect_state, hvictims, deleteWorkflows_nil]
    · rintro rfl n hn id row hrow hfew
      exact (hrows id row).mpr ⟨hrow, not_outdated_of_newest hn hfew⟩

/-! ## Instances -/

theorem wellTyped_finishedChild (h : ∀ c, cutoff = some c → FitsI64 c) :
    WellTyped cutoff none finishedChild := by
  refine ⟨h, fun n hn => (nomatch hn), ?_⟩
  refine AList.forall_lookup_insert (AList.forall_lookup_insert ?_ ⟨fitsI64_zero, by decide⟩)
    ⟨fitsI64_zero, by decide⟩
  intro k row hrow
  cases hrow

/-- A collection one millisecond later than the rows. -/
theorem collects_iff_later : CollectsExactly (some 1) none finishedChild := by
  refine (collects_iff wellKeyed_finishedChild (wellTyped_finishedChild fun c hc => ?_)).mpr ?_
  · cases hc
    exact ⟨by decide, by decide⟩
  · rintro ⟨hmin, -⟩
    exact absurd (Option.some.inj hmin) (by decide)

/-- **The smallest cutoff deletes every terminal row**, though none is older than it. -/
theorem smallest_cutoff_deletes :
    (∃ row, finishedChild.workflows.lookup "c" = some row ∧
      ¬Outdated (some I64_MIN) none finishedChild row) ∧
    (garbageCollect (some I64_MIN) none finishedChild).2.workflows.lookup "c" = none := by
  refine ⟨⟨_, rfl, ?_⟩, ?_⟩
  · rintro ⟨-, c, ⟨hc, -⟩, hold⟩
    rw [bounds_none] at hc
    cases hc
    exact absurd hold (by decide)
  · exact lookup_garbageCollect_of_condemned wellKeyed_finishedChild
      ⟨I64_MIN, _, rfl, rfl, rfl, by decide⟩

end Durare.Memory
