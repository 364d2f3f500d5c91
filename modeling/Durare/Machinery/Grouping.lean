import Durare.Machinery.Table
import Mathlib.Algebra.BigOperators.Group.List.Lemmas
import Mathlib.Algebra.GroupWithZero.Nat
import Mathlib.Data.List.Dedup

/-!
# Machinery/Grouping — rows by the group they belong to

Rows have a key, and the rows of one key are a group.  `groups` says what the groups of a list are;
`accumulate` goes through the list once and keeps one accumulator for each key it has met.  The two
give the same groups (`accumulate_perm`), the groups of a list have as many rows as the list
(`sum_length_groups`), and a running minimum or maximum is that of the group (`foldl_merge_min`,
`foldl_merge_max`).
-/

namespace Grouping

open List

variable {α α' β γ κ : Type*} [DecidableEq κ]

/-- The rows of a group. -/
def members (key : α → κ) (rows : List α) (k : κ) : List α := rows.filter (key · = k)

/-- The groups that have rows. -/
def groups (key : α → κ) (rows : List α) : List (κ × List α) :=
  (rows.map key).dedup.map fun k => (k, members key rows k)

/-- Every row joins the accumulator of its group. -/
def accumulate (key : α → κ) (add : β → α → β) (init : β) (rows : List α) : Table κ β :=
  rows.foldl (fun t a => t.insert (key a) (add ((t.lookup (key a)).getD init) a)) ∅

variable {key : α → κ} {key' : α' → κ} {add : β → α → β} {init : β} {rows : List α}
  {rows' : List α'} {k : κ} {a : α}

/-! ## Members -/

theorem mem_members : a ∈ members key rows k ↔ a ∈ rows ∧ key a = k := by simp [members]

theorem members_eq_nil_iff : members key rows k = [] ↔ ∀ a ∈ rows, key a ≠ k := by
  simp [members, filter_eq_nil_iff]

theorem members_append_self (rows : List α) (a : α) :
    members key (rows ++ [a]) (key a) = members key rows (key a) ++ [a] := by
  simp [members]

theorem members_append_ne (rows : List α) (h : key a ≠ k) :
    members key (rows ++ [a]) k = members key rows k := by
  simp [members, h]

theorem members_map (f : α' → α) (rows : List α') (k : κ) :
    members key (rows.map f) k = (members (key ∘ f) rows k).map f :=
  filter_map

theorem members_perm {rows₁ rows₂ : List α} (h : rows₁.Perm rows₂) (k : κ) :
    (members key rows₁ k).Perm (members key rows₂ k) :=
  h.filter _

/-! ## Groups -/

theorem mem_groups {l : List α} :
    (k, l) ∈ groups key rows ↔ l = members key rows k ∧ members key rows k ≠ [] := by
  have hne : members key rows k ≠ [] ↔ k ∈ (rows.map key).dedup := by
    rw [Ne, members_eq_nil_iff, mem_dedup, mem_map]
    simp
  rw [hne, groups, mem_map]
  constructor
  · rintro ⟨k', hk', heq⟩
    cases heq
    exact ⟨rfl, hk'⟩
  · rintro ⟨rfl, hk⟩
    exact ⟨k, hk, rfl⟩

theorem keys_groups (key : α → κ) (rows : List α) :
    (groups key rows).map Prod.fst = (rows.map key).dedup := by
  rw [groups, List.map_map]
  exact map_id _

theorem nodup_groups : (groups key rows).Nodup := by
  refine List.Nodup.of_map Prod.fst ?_
  rw [keys_groups]
  exact nodup_dedup _

/-- **Every row is in one group.** -/
theorem sum_length_groups (key : α → κ) (rows : List α) :
    ((groups key rows).map fun g => g.2.length).sum = rows.length := by
  have hcount (k : κ) : (members key rows k).length = (rows.map key).count k := by
    rw [members, ← countP_eq_length_filter, List.count, countP_map]
    rfl
  have hsum := sum_map_count_dedup_eq_length (rows.map key)
  rw [length_map] at hsum
  rw [groups, List.map_map, ← hsum]
  exact congrArg List.sum (map_congr_left fun k _ => hcount k)

/-- What is shown of the groups is shown of the group of some row. -/
theorem mem_map_groups {shown : κ → List α → γ} {c : γ} :
    c ∈ (groups key rows).map (fun g => shown g.1 g.2) ↔
      ∃ a ∈ rows, c = shown (key a) (members key rows (key a)) := by
  rw [mem_map]
  constructor
  · rintro ⟨⟨k, l⟩, hg, rfl⟩
    obtain ⟨rfl, hne⟩ := mem_groups.mp hg
    obtain ⟨a, ha⟩ := exists_mem_of_ne_nil _ hne
    obtain ⟨hrow, rfl⟩ := mem_members.mp ha
    exact ⟨a, hrow, rfl⟩
  · rintro ⟨a, ha, rfl⟩
    have hmem : a ∈ members key rows (key a) := mem_members.mpr ⟨ha, rfl⟩
    exact ⟨(key a, _), mem_groups.mpr ⟨rfl, ne_nil_of_mem hmem⟩, rfl⟩

/-- Keys that are told apart after a change of form give the same groups. -/
theorem mem_map_groups_comp {κ' : Type*} [DecidableEq κ'] {φ : κ → κ'}
    (hφ : ∀ a ∈ rows, ∀ b ∈ rows, φ (key a) = φ (key b) → key a = key b)
    {shown : κ' → List α → γ} {c : γ} :
    c ∈ (groups key rows).map (fun g => shown (φ g.1) g.2) ↔
      c ∈ (groups (φ ∘ key) rows).map fun g => shown g.1 g.2 := by
  have hsame {a : α} (ha : a ∈ rows) :
      members (φ ∘ key) rows (φ (key a)) = members key rows (key a) := by
    refine filter_congr fun b hb => decide_eq_decide.mpr ⟨hφ b hb a ha, ?_⟩
    exact congrArg φ
  rw [mem_map_groups, @mem_map_groups _ _ _ _ key rows fun k l => shown (φ k) l]
  refine exists_congr fun a => and_congr_right fun ha => ?_
  rw [Function.comp_apply, hsame ha]

/-- Two lists that are grouped and shown group by group show the same, if the groups have the same
keys and each of them is shown alike; what is shown tells the key. -/
theorem shown_alike_iff {shown : κ → List α → γ} {shown' : κ → List α' → γ}
    (htell : ∀ a ∈ rows, ∀ a' ∈ rows', ∀ l l',
      shown (key a) l = shown' (key' a') l' → key a = key' a') :
    (∀ c, c ∈ (groups key rows).map (fun g => shown g.1 g.2) ↔
      c ∈ (groups key' rows').map fun g => shown' g.1 g.2) ↔
    ∀ k, (members key rows k = [] ↔ members key' rows' k = []) ∧ (members key rows k ≠ [] →
        shown k (members key rows k) = shown' k (members key' rows' k)) := by
  constructor
  · intro hsame
    have hright {k : κ} (h : members key rows k ≠ []) : members key' rows' k ≠ [] ∧
        shown k (members key rows k) = shown' k (members key' rows' k) := by
      obtain ⟨a, ha⟩ := exists_mem_of_ne_nil _ h
      obtain ⟨hrow, rfl⟩ := mem_members.mp ha
      obtain ⟨a', ha', heq⟩ := mem_map_groups.mp ((hsame _).mp (mem_map_groups.mpr ⟨a, hrow, rfl⟩))
      have hkey := htell a hrow a' ha' _ _ heq
      rw [hkey] at heq ⊢
      exact ⟨ne_nil_of_mem (mem_members.mpr ⟨ha', rfl⟩), heq⟩
    have hleft {k : κ} (h : members key' rows' k ≠ []) : members key rows k ≠ [] := by
      obtain ⟨a', ha'⟩ := exists_mem_of_ne_nil _ h
      obtain ⟨hrow', rfl⟩ := mem_members.mp ha'
      obtain ⟨a, ha, heq⟩ := mem_map_groups.mp ((hsame _).mpr (mem_map_groups.mpr ⟨a', hrow', rfl⟩))
      rw [← htell a ha a' hrow' _ _ heq.symm]
      exact ne_nil_of_mem (mem_members.mpr ⟨ha, rfl⟩)
    exact fun k => ⟨not_iff_not.mp ⟨fun h => (hright h).1, hleft⟩, fun h => (hright h).2⟩
  · intro hall c
    rw [mem_map_groups, mem_map_groups]
    constructor
    · rintro ⟨a, ha, rfl⟩
      have hne := ne_nil_of_mem (mem_members.mpr ⟨ha, rfl⟩ : a ∈ members key rows (key a))
      obtain ⟨a', ha'⟩ := exists_mem_of_ne_nil _ fun h => hne ((hall (key a)).1.mpr h)
      obtain ⟨hrow', hkey⟩ := mem_members.mp ha'
      exact ⟨a', hrow', by rw [hkey, (hall (key a)).2 hne]⟩
    · rintro ⟨a', ha', rfl⟩
      have hne' := ne_nil_of_mem (mem_members.mpr ⟨ha', rfl⟩ : a' ∈ members key' rows' (key' a'))
      have hne := fun h => hne' ((hall (key' a')).1.mp h)
      obtain ⟨a, ha⟩ := exists_mem_of_ne_nil _ hne
      obtain ⟨hrow, hkey⟩ := mem_members.mp ha
      exact ⟨a, hrow, by rw [hkey, (hall (key' a')).2 hne]⟩

/-! ## One pass -/

theorem lookup_accumulate (k : κ) : (accumulate key add init rows).lookup k =
    if members key rows k = [] then none else some ((members key rows k).foldl add init) := by
  induction rows using List.reverseRecOn with
  | nil => rfl
  | append_singleton rows a ih =>
    have hstep : accumulate key add init (rows ++ [a]) =
        (accumulate key add init rows).insert (key a)
          (add (((accumulate key add init rows).lookup (key a)).getD init) a) := by
      rw [accumulate, foldl_append]
      rfl
    rw [hstep]
    by_cases hk : key a = k
    · subst hk
      rw [AList.lookup_insert, ih, members_append_self]
      by_cases hnil : members key rows (key a) = []
      · simp [hnil]
      · simp [hnil, foldl_append]
    · rw [AList.lookup_insert_ne (Ne.symm hk), ih, members_append_ne rows hk]

/-- **One pass finds the groups.** -/
theorem accumulate_perm (key : α → κ) (add : β → α → β) (init : β) (rows : List α) :
    ((accumulate key add init rows).entries.map fun e => (e.1, e.2)).Perm
      ((groups key rows).map fun g => (g.1, g.2.foldl add init)) := by
  have hkeys : ((accumulate key add init rows).entries.map Sigma.fst).Nodup :=
    (accumulate key add init rows).nodupKeys
  have hleft : ((accumulate key add init rows).entries.map fun e => (e.1, e.2)).Nodup := by
    refine List.Nodup.of_map Prod.fst ?_
    rw [List.map_map]
    exact hkeys
  have hright : ((groups key rows).map fun g => (g.1, g.2.foldl add init)).Nodup := by
    refine List.Nodup.of_map Prod.fst ?_
    rw [List.map_map]
    exact (keys_groups key rows).symm ▸ nodup_dedup _
  refine (perm_ext_iff_of_nodup hleft hright).mpr fun ⟨k, b⟩ => ?_
  have hlookup : (k, b) ∈ (accumulate key add init rows).entries.map (fun e => (e.1, e.2)) ↔
      (accumulate key add init rows).lookup k = some b := by
    rw [← Option.mem_def, AList.mem_lookup_iff, mem_map]
    constructor
    · rintro ⟨⟨k', b'⟩, hmem, heq⟩
      cases heq
      exact hmem
    · exact fun hmem => ⟨⟨k, b⟩, hmem, rfl⟩
  rw [hlookup, lookup_accumulate, mem_map]
  constructor
  · intro h
    split at h
    · cases h
    · next hne =>
        cases h
        exact ⟨(k, members key rows k), mem_groups.mpr ⟨rfl, hne⟩, rfl⟩
  · rintro ⟨⟨k', l⟩, hg, heq⟩
    obtain ⟨rfl, hne⟩ := mem_groups.mp hg
    cases heq
    rw [if_neg hne]

/-! ## Running extrema -/

theorem foldl_merge_min (f : α → Option Int) (best : Option Int) (rows : List α) :
    rows.foldl (fun best a => best.merge min (f a)) best =
      best.merge min (rows.filterMap f).min? := by
  induction rows generalizing best with
  | nil => simp
  | cons a rows ih =>
    rw [foldl_cons, ih]
    cases hf : f a with
    | none => simp [hf]
    | some x => cases best <;> cases hrest : (rows.filterMap f).min? <;>
        simp [hf, hrest, Int.min_assoc]

theorem foldl_merge_max (f : α → Option Int) (best : Option Int) (rows : List α) :
    rows.foldl (fun best a => best.merge max (f a)) best =
      best.merge max (rows.filterMap f).max? := by
  induction rows generalizing best with
  | nil => simp
  | cons a rows ih =>
    rw [foldl_cons, ih]
    cases hf : f a with
    | none => simp [hf]
    | some x => cases best <;> cases hrest : (rows.filterMap f).max? <;>
        simp [hf, hrest, Int.max_assoc]

end Grouping
