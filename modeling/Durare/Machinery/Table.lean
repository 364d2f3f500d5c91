import Mathlib.Data.Finset.Card
import Mathlib.Data.List.AList

/-!
# Machinery/Table — keyed tables

A table is a finite map with one row per key: `AList` at a constant row type.  What a store does to
a keyed collection besides insertion is here — insert unless present, change a row in place, keep
the rows whose key passes a test — each with its effect on `lookup`, so that no later proof opens
the list of entries.  Rows are counted by the keys that hold them, `holders`.  A list of pairs is
looked up in by its first entry for a key, and has one if its keys are different.
-/

/-- A finite map from keys to rows. -/
abbrev Table (κ α : Type*) := AList fun _ : κ => α

namespace AList

open List

variable {κ α : Type*} [DecidableEq κ]

/-! ## Insert unless present -/

/-- Insert `v` at `k` unless `k` already has a row: the first writer wins. -/
def insertNew (t : Table κ α) (k : κ) (v : α) : Table κ α :=
  match t.lookup k with
  | some _ => t
  | none => t.insert k v

theorem lookup_insertNew (t : Table κ α) (k : κ) (v : α) (k' : κ) :
    (t.insertNew k v).lookup k' = if k' = k then some ((t.lookup k).getD v) else t.lookup k' := by
  by_cases hk : k' = k
  · subst hk
    cases h : t.lookup k' <;> simp [insertNew, h]
  · cases h : t.lookup k <;> simp [insertNew, h, hk]

@[simp] theorem lookup_insertNew_self (t : Table κ α) (k : κ) (v : α) :
    (t.insertNew k v).lookup k = some ((t.lookup k).getD v) := by simp [lookup_insertNew]

variable {k : κ}

theorem lookup_insertNew_ne (t : Table κ α) {k' : κ} (v : α) (h : k' ≠ k) :
    (t.insertNew k v).lookup k' = t.lookup k' := by simp [lookup_insertNew, h]

variable {a : α} {t : Table κ α}

/-- **A row already there survives an insertion**, whatever its key. -/
theorem lookup_insertNew_of_some {k' : κ} (h : t.lookup k' = some a) (k : κ) (v : α) :
    (t.insertNew k v).lookup k' = some a := by
  by_cases hk : k' = k
  · subst hk
    simp [h]
  · rw [lookup_insertNew_ne t v hk, h]

theorem insertNew_of_some (h : t.lookup k = some a) (v : α) :
    t.insertNew k v = t := by simp [insertNew, h]

theorem insertNew_of_none (h : t.lookup k = none) (v : α) :
    t.insertNew k v = t.insert k v := by simp [insertNew, h]

/-! ## Changing a row in place -/

/-- Apply `f` to the row at `k`, if there is one. -/
def modify (t : Table κ α) (k : κ) (f : α → α) : Table κ α :=
  match t.lookup k with
  | some a => t.insert k (f a)
  | none => t

theorem lookup_modify (t : Table κ α) (k : κ) (f : α → α) (k' : κ) :
    (t.modify k f).lookup k' = if k' = k then (t.lookup k).map f else t.lookup k' := by
  by_cases hk : k' = k
  · subst hk
    cases h : t.lookup k' <;> simp [modify, h]
  · cases h : t.lookup k <;> simp [modify, h, hk]

@[simp] theorem lookup_modify_self (t : Table κ α) (k : κ) (f : α → α) :
    (t.modify k f).lookup k = (t.lookup k).map f := by simp [lookup_modify]

theorem lookup_modify_ne (t : Table κ α) {k' : κ} (f : α → α) (h : k' ≠ k) :
    (t.modify k f).lookup k' = t.lookup k' := by simp [lookup_modify, h]

/-- Rows changed one after the other by a change that makes no difference the second time. -/
theorem lookup_foldl_modify {f : α → α} (hf : ∀ a, f (f a) = f a) (k : κ) :
    ∀ (ks : List κ) (t : Table κ α), (ks.foldl (fun t k => t.modify k f) t).lookup k =
      if k ∈ ks then (t.lookup k).map f else t.lookup k
  | [], t => by simp
  | k' :: ks, t => by
    rw [foldl_cons, lookup_foldl_modify hf k ks]
    by_cases hk : k = k'
    · subst hk
      have hff : f ∘ f = f := funext hf
      by_cases hmem : k ∈ ks <;> simp [hmem, hff]
    · simp [lookup_modify_ne t f hk, hk]

variable {p : κ → α → Prop}

/-- What holds of every row still does after an insert, if it holds of the row inserted. -/
theorem forall_lookup_insert (ht : ∀ k' b, t.lookup k' = some b → p k' b) (hk : p k a) :
    ∀ k' b, (AList.insert k a t).lookup k' = some b → p k' b := by
  intro k' b hb
  by_cases hkk : k' = k
  · subst hkk
    rw [AList.lookup_insert] at hb
    cases hb
    exact hk
  · rw [AList.lookup_insert_ne hkk] at hb
    exact ht k' b hb

theorem forall_lookup_insertNew (ht : ∀ k' b, t.lookup k' = some b → p k' b) (hk : p k a) :
    ∀ k' b, (t.insertNew k a).lookup k' = some b → p k' b := by
  cases h : t.lookup k with
  | some old =>
    rw [insertNew_of_some h]
    exact ht
  | none =>
    rw [insertNew_of_none h]
    exact forall_lookup_insert ht hk

/-! ## Keeping some keys -/

/-- Keep the rows whose key passes `p`. -/
def retain (t : Table κ α) (p : κ → Bool) : Table κ α :=
  ⟨t.entries.filter fun e => p e.1, t.nodupKeys.sublist filter_sublist⟩

theorem dlookup_filter (p : κ → Bool) (k : κ) : ∀ l : List (Σ _ : κ, α),
    (l.filter fun e => p e.1).dlookup k = if p k then l.dlookup k else none
  | [] => by simp
  | ⟨k', a⟩ :: l => by
    have ih := dlookup_filter p k l
    by_cases hk : k' = k
    · subst hk
      by_cases hp : p k'
      · simp [hp]
      · simp only [hp, Bool.false_eq_true, if_false] at ih ⊢
        simpa [filter_cons, hp] using ih
    · by_cases hp' : p k'
      · simp [hp', dlookup_cons_ne, Ne.symm hk, ih]
      · simp [hp', dlookup_cons_ne, Ne.symm hk, ih]

theorem lookup_retain (t : Table κ α) (p : κ → Bool) (k : κ) :
    (t.retain p).lookup k = if p k then t.lookup k else none :=
  dlookup_filter p k t.entries

theorem lookup_of_retain {p : κ → Bool} (h : (t.retain p).lookup k = some a) :
    t.lookup k = some a := by
  rw [lookup_retain] at h
  split at h
  · exact h
  · cases h

omit [DecidableEq κ] in
@[simp] theorem retain_true (t : Table κ α) : (t.retain fun _ => true) = t :=
  AList.ext (filter_true t.entries)

/-! ## Changing every row -/

/-- Apply `f` to every row. -/
def mapRows (t : Table κ α) (f : α → α) : Table κ α :=
  ⟨t.entries.map fun e => ⟨e.1, f e.2⟩, by
    have hkeys : (t.entries.map fun e => (⟨e.1, f e.2⟩ : Σ _ : κ, α)).keys = t.entries.keys := by
      simp [List.keys, Function.comp_def]
    have hnodup := t.nodupKeys
    rw [List.NodupKeys] at hnodup ⊢
    rwa [hkeys]⟩

theorem dlookup_map_rows (f : α → α) (k : κ) : ∀ l : List (Σ _ : κ, α),
    (l.map fun e => (⟨e.1, f e.2⟩ : Σ _ : κ, α)).dlookup k = (l.dlookup k).map f
  | [] => by simp
  | ⟨k', a⟩ :: l => by
    by_cases hk : k' = k
    · subst hk
      simp
    · simp [dlookup_cons_ne, Ne.symm hk, dlookup_map_rows f k l]

@[simp] theorem lookup_mapRows (t : Table κ α) (f : α → α) (k : κ) :
    (t.mapRows f).lookup k = (t.lookup k).map f :=
  dlookup_map_rows f k t.entries

/-! ## The rows -/

/-- The rows, in the table's own order. -/
def values (t : Table κ α) : List α := t.entries.map Sigma.snd

theorem mem_values : a ∈ t.values ↔ ∃ k, t.lookup k = some a := by
  simp only [values, mem_map]
  constructor
  · rintro ⟨⟨k, b⟩, hmem, rfl⟩
    exact ⟨k, (mem_dlookup_iff t.nodupKeys).mpr hmem⟩
  · rintro ⟨k, hk⟩
    exact ⟨⟨k, a⟩, (mem_dlookup_iff t.nodupKeys).mp hk, rfl⟩

/-- Rows that hold their own key have the table's keys. -/
theorem map_values_eq_keys {key : α → κ} (h : ∀ k a, t.lookup k = some a → key a = k) :
    t.values.map key = t.keys := by
  rw [values, List.map_map, keys, List.keys]
  exact map_congr_left fun e he => h e.1 e.2 (mem_lookup_iff.mpr he)

theorem nodup_map_values {key : α → κ} (h : ∀ k a, t.lookup k = some a → key a = k) :
    (t.values.map key).Nodup := by
  rw [map_values_eq_keys h]
  exact t.keys_nodup

/-- The keys whose row passes `p`. -/
def holders (t : Table κ α) (p : α → Bool) : Finset κ :=
  ((t.entries.filter fun e => p e.2).map Sigma.fst).toFinset

theorem mem_holders {p : α → Bool} : k ∈ t.holders p ↔ ∃ a, t.lookup k = some a ∧ p a = true := by
  simp only [holders, mem_toFinset, mem_map, mem_filter]
  constructor
  · rintro ⟨⟨k, a⟩, ⟨hmem, hp⟩, rfl⟩
    exact ⟨a, (mem_dlookup_iff t.nodupKeys).mpr hmem, hp⟩
  · rintro ⟨a, hk, hp⟩
    exact ⟨⟨k, a⟩, ⟨(mem_dlookup_iff t.nodupKeys).mp hk, hp⟩, rfl⟩

/-- **Rows are counted by their keys.** -/
theorem card_holders (t : Table κ α) (p : α → Bool) : (t.holders p).card = t.values.countP p := by
  have hnodup : ((t.entries.filter fun e => p e.2).map Sigma.fst).Nodup :=
    t.nodupKeys.sublist filter_sublist
  rw [holders, toFinset_card_of_nodup hnodup, length_map, values, countP_map,
    countP_eq_length_filter]
  rfl

/-! ## Two tables side by side -/

theorem entries_eq_filterMap (t : Table κ α) :
    t.entries = t.keys.filterMap fun k => (t.lookup k).map (Sigma.mk k) := by
  have hkeys : t.keys = t.entries.map Sigma.fst := rfl
  rw [hkeys, filterMap_map]
  have hentry : t.entries.filterMap (fun e => (t.lookup e.1).map (Sigma.mk e.1)) =
      t.entries.filterMap some :=
    filterMap_congr fun e he => by rw [AList.mem_lookup_iff.mpr he]; rfl
  exact (hentry.trans filterMap_some).symm

/-- Tables whose rows correspond, key by key, have their rows listed in pairs. -/
theorem exists_pairs {β : Type*} {R : α → β → Prop} {t' : Table κ β}
    (h : ∀ k, Option.Rel R (t.lookup k) (t'.lookup k)) : ∃ pairs : List (κ × α × β),
      t.entries = pairs.map (fun p => ⟨p.1, p.2.1⟩) ∧
      t'.entries.Perm (pairs.map fun p => ⟨p.1, p.2.2⟩) ∧ ∀ p ∈ pairs, R p.2.1 p.2.2 := by
  have hcases (k : κ) : (t.lookup k = none ∧ t'.lookup k = none) ∨
      ∃ a b, t.lookup k = some a ∧ t'.lookup k = some b ∧ R a b := by
    have hrel := h k
    generalize t.lookup k = o at hrel ⊢
    generalize t'.lookup k = o' at hrel ⊢
    cases hrel with
    | none => exact .inl ⟨rfl, rfl⟩
    | some hab => exact .inr ⟨_, _, rfl, rfl, hab⟩
  have hkeys : t'.keys.Perm t.keys := by
    refine (perm_ext_iff_of_nodup t'.keys_nodup t.keys_nodup).mpr fun k => ?_
    rw [← AList.mem_keys, ← AList.mem_keys, ← AList.lookup_isSome, ← AList.lookup_isSome]
    rcases hcases k with ⟨ha, hb⟩ | ⟨a, b, ha, hb, -⟩ <;> simp [ha, hb]
  refine ⟨t.keys.filterMap fun k => (t.lookup k).bind fun a => (t'.lookup k).map fun b => (k, a, b),
    ?_, ?_, ?_⟩
  · rw [map_filterMap, entries_eq_filterMap t]
    refine filterMap_congr fun k _ => ?_
    rcases hcases k with ⟨ha, hb⟩ | ⟨a, b, ha, hb, -⟩ <;> simp [ha, hb]
  · rw [map_filterMap, entries_eq_filterMap t']
    refine (hkeys.filterMap _).trans (List.Perm.of_eq (filterMap_congr fun k _ => ?_))
    rcases hcases k with ⟨ha, hb⟩ | ⟨a, b, ha, hb, -⟩ <;> simp [ha, hb]
  · intro p hp
    obtain ⟨k, -, hpair⟩ := mem_filterMap.mp hp
    rcases hcases k with ⟨ha, hb⟩ | ⟨a, b, ha, hb, hab⟩
    · simp [ha] at hpair
    · simp only [ha, hb, Option.bind_some, Option.map_some, Option.some.injEq] at hpair
      exact hpair ▸ hab

end AList

/-! ## Association lists -/

namespace List

variable {κ β : Type*} [DecidableEq κ]

theorem lookup_cons_ite (k : κ) (e : κ × β) (l : List (κ × β)) :
    (e :: l).lookup k = if k = e.1 then some e.2 else l.lookup k := by
  rw [List.lookup_cons]
  by_cases h : k = e.1
  · rw [if_pos h, beq_iff_eq.mpr h]
  · rw [if_neg h, beq_eq_false_iff_ne.mpr h]

/-- In a list with one entry per key, the entry looked up is the one that is there. -/
theorem lookup_eq_some_iff_mem {l : List (κ × β)} (h : (l.map Prod.fst).Nodup) {k : κ} {b : β} :
    l.lookup k = some b ↔ (k, b) ∈ l := by
  induction l with
  | nil => simp
  | cons row l ih =>
    obtain ⟨hrow, hl⟩ := List.nodup_cons.mp h
    rw [lookup_cons_ite, List.mem_cons]
    by_cases hk : k = row.1
    · subst hk
      have hnot : (row.1, b) ∉ l := fun hmem => hrow (List.mem_map.mpr ⟨_, hmem, rfl⟩)
      simp [hnot, Prod.ext_iff, eq_comm]
    · have hne : (k, b) ≠ row := fun heq => hk (congrArg Prod.fst heq)
      rw [if_neg hk, ih hl]
      simp [hne]

end List
