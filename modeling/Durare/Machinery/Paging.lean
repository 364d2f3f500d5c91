import Mathlib.Data.List.Nodup

/-!
# Machinery/Paging — pages of a filtered list

A page skips some of the rows that pass a filter, and shows as many of the next as it has room for.
Two filters show the same page of a list without repetitions in two cases only (`page_eq_iff`): both
pages are blank; or the list splits into what is before the page, on it and after it, such that each
filter lets pass as many rows before the page as are skipped, and they agree on the page.
-/

namespace Paging

open List

variable {α : Type*} {p q : α → Bool} {k n : Nat} {l : List α} {a : α}

/-- The rows split into those before the page, those on it and those after it. -/
def Aligned (p q : α → Bool) (k n : Nat) (l : List α) : Prop :=
  ∃ before page after, l = before ++ page ++ after ∧
    before.countP p = k ∧ before.countP q = k ∧ (∀ x ∈ page, p x = q x) ∧
    (page.countP p = n ∨ page.countP p < n ∧ after = [])

/-- The page has room for no row, or skips them all. -/
def Blank (p : α → Bool) (k n : Nat) (l : List α) : Prop := n = 0 ∨ l.countP p ≤ k

/-- Two filters let the same rows pass if they agree on every one. -/
theorem filter_eq_iff : l.filter p = l.filter q ↔ ∀ x ∈ l, p x = q x := by
  refine ⟨fun h x hx => Bool.eq_iff_iff.mpr ?_, filter_congr⟩
  have hmem : x ∈ l.filter p ↔ x ∈ l.filter q := by rw [h]
  simpa [mem_filter, hx] using hmem

/-- Rows are told from each other by what is different for any two of them. -/
theorem map_eq_map_iff {β : Type*} {f : α → β} (hl : (l.map f).Nodup) :
    ∀ {l₁ l₂ : List α}, l₁ ⊆ l → l₂ ⊆ l → (l₁.map f = l₂.map f ↔ l₁ = l₂)
  | [], [], _, _ => by simp
  | [], _ :: _, _, _ => by simp
  | _ :: _, [], _, _ => by simp
  | x :: l₁, y :: l₂, h₁, h₂ => by
    obtain ⟨hx, h₁⟩ := cons_subset.mp h₁
    obtain ⟨hy, h₂⟩ := cons_subset.mp h₂
    have hhead : f x = f y ↔ x = y := ⟨fun h => inj_on_of_nodup_map hl hx hy h, congrArg f⟩
    rw [map_cons, map_cons, List.cons.injEq, List.cons.injEq, hhead,
      map_eq_map_iff hl h₁ h₂]

theorem page_eq_nil_iff : ((l.filter p).drop k).take n = [] ↔ Blank p k n l := by
  rw [take_eq_nil_iff, drop_eq_nil_iff, ← countP_eq_length_filter]
  rfl

theorem exists_before {rest : List α} (h : (l.filter p).drop k = a :: rest) :
    ∃ before after, l = before ++ a :: after ∧ before.countP p = k ∧ p a = true ∧
      after.filter p = rest := by
  induction l generalizing k with
  | nil => simp at h
  | cons x l ih =>
    cases hx : p x with
    | false =>
      rw [filter_cons_of_neg (by simp [hx])] at h
      obtain ⟨before, after, rfl, hcount, ha, hafter⟩ := ih h
      exact ⟨x :: before, after, rfl, by simp [hx, hcount], ha, hafter⟩
    | true =>
      rw [filter_cons_of_pos hx] at h
      cases k with
      | zero =>
        rw [drop_zero, List.cons.injEq] at h
        obtain ⟨rfl, rfl⟩ := h
        exact ⟨[], l, rfl, rfl, hx, rfl⟩
      | succ k =>
        obtain ⟨before, after, rfl, hcount, ha, hafter⟩ := ih h
        exact ⟨x :: before, after, rfl, by simp [hx, hcount], ha, hafter⟩

/-- Two filters that begin with the same rows agree until the page is full. -/
theorem exists_page (hl : l.Nodup) (h : (l.filter p).take n = (l.filter q).take n) :
    ∃ page after, l = page ++ after ∧ (∀ x ∈ page, p x = q x) ∧
      (page.countP p = n ∨ page.countP p < n ∧ after = []) := by
  induction l generalizing n with
  | nil =>
    refine ⟨[], [], rfl, fun _ hx => absurd hx not_mem_nil, ?_⟩
    rcases Nat.eq_zero_or_pos n with rfl | hn
    · exact .inl rfl
    · exact .inr ⟨hn, rfl⟩
  | cons x l ih =>
    obtain ⟨hx, hl⟩ := nodup_cons.mp hl
    cases n with
    | zero => exact ⟨[], x :: l, rfl, fun _ hx => absurd hx not_mem_nil, .inl rfl⟩
    | succ n =>
      -- A row that one of them shows first is not among the later rows of the other.
      have hlater {r : α → Bool} {rest : List α}
          (hmem : x :: rest = (l.filter r).take (n + 1)) : False := by
        have hin : x ∈ (l.filter r).take (n + 1) := hmem ▸ mem_cons_self
        exact hx (mem_filter.mp (mem_of_mem_take hin)).1
      cases hpx : p x <;> cases hqx : q x
      · rw [filter_cons_of_neg (by simp [hpx]),
          filter_cons_of_neg (by simp [hqx])] at h
        obtain ⟨page, after, rfl, hsame, hfull⟩ := ih hl h
        exact ⟨x :: page, after, rfl, forall_mem_cons.mpr ⟨hpx.trans hqx.symm, hsame⟩,
          by simpa [hpx] using hfull⟩
      · rw [filter_cons_of_neg (by simp [hpx]), filter_cons_of_pos hqx,
          take_succ_cons] at h
        exact (hlater h.symm).elim
      · rw [filter_cons_of_pos hpx, filter_cons_of_neg (by simp [hqx]),
          take_succ_cons] at h
        exact (hlater h).elim
      · rw [filter_cons_of_pos hpx, filter_cons_of_pos hqx, take_succ_cons,
          take_succ_cons, List.cons.injEq] at h
        obtain ⟨page, after, rfl, hsame, hfull⟩ := ih hl h.2
        exact ⟨x :: page, after, rfl, forall_mem_cons.mpr ⟨hpx.trans hqx.symm, hsame⟩,
          by simpa [hpx] using hfull⟩

theorem Aligned.page_eq (h : Aligned p q k n l) :
    ((l.filter p).drop k).take n = ((l.filter q).drop k).take n := by
  obtain ⟨before, page, after, rfl, hp, hq, hsame, hfull⟩ := h
  have hfilter : page.filter p = page.filter q := filter_congr hsame
  have hshow (r : α → Bool) (hr : before.countP r = k) (hpage : page.filter r = page.filter p) :
      (((before ++ page ++ after).filter r).drop k).take n = page.filter p := by
    have hskip : (before.filter r).length = k := countP_eq_length_filter.symm.trans hr
    rw [append_assoc, filter_append, drop_left' hskip, filter_append, hpage]
    have hcount : (page.filter p).length = page.countP p := countP_eq_length_filter.symm
    rcases hfull with hfull | ⟨hlt, rfl⟩
    · exact take_left' (hcount.trans hfull)
    · rw [filter_nil, append_nil, take_of_length_le (by omega)]
  rw [hshow p hp rfl, hshow q hq hfilter.symm]

/-- **When two filters show the same page.** -/
theorem page_eq_iff (hl : l.Nodup) :
    ((l.filter p).drop k).take n = ((l.filter q).drop k).take n ↔
      (Blank p k n l ∧ Blank q k n l) ∨ Aligned p q k n l := by
  constructor
  · intro h
    cases n with
    | zero => exact .inl ⟨.inl rfl, .inl rfl⟩
    | succ n =>
      cases hp : (l.filter p).drop k with
      | nil =>
        have hnil : ((l.filter p).drop k).take (n + 1) = [] := by rw [hp]; rfl
        exact .inl ⟨page_eq_nil_iff.mp hnil, page_eq_nil_iff.mp (h ▸ hnil)⟩
      | cons a rest =>
        -- Both pages begin with `a`, which stands in one place only.
        rw [hp, take_succ_cons] at h
        cases hq : (l.filter q).drop k with
        | nil =>
          rw [hq] at h
          cases h
        | cons b rest' =>
          rw [hq, take_succ_cons, List.cons.injEq] at h
          obtain ⟨rfl, h⟩ := h
          obtain ⟨before, after, hsplit, hcount, hpa, rfl⟩ := exists_before hp
          obtain ⟨before', after', hsplit', hcount', hqa, rfl⟩ := exists_before hq
          rw [hsplit] at hl hsplit'
          obtain ⟨-, hrest, hapart⟩ := nodup_append.mp hl
          obtain ⟨hnot, hafter⟩ := nodup_cons.mp hrest
          have hbefore : a ∉ before := fun ha => hapart a ha a mem_cons_self rfl
          obtain ⟨rfl, -, rfl⟩ := (append_cons_inj_of_notMem hbefore hnot).mp hsplit'
          obtain ⟨page, last, rfl, hsame, hfull⟩ := exists_page hafter h
          exact .inr ⟨before, a :: page, last, by simp [hsplit], hcount, hcount',
            forall_mem_cons.mpr ⟨hpa.trans hqa.symm, hsame⟩, by simpa [hpa] using hfull⟩
  · rintro (⟨hp, hq⟩ | h)
    · rw [page_eq_nil_iff.mpr hp, page_eq_nil_iff.mpr hq]
    · exact h.page_eq

end Paging
